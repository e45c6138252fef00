import Mathlib.Algebra.BigOperators.Group.List.Basic
import PanZoom.Input.Drag
import PanZoom.Proofs.Input.Held

/-!
# Strokes of the left button

A drag adds up the ways between one move and the next. Said without those ways, a stroke is what
lies between a press of the left button and the next event of that button, and only its ends matter:

* `lastLeft?`: what the last event of the left button says, found from the end of a history;
* `strokes`: the presses of the left button, each with the moves that belong to it;
* `Drag.observeAll`: the drag after a history. `Drag.isRunning_observeAll` says that it agrees with
  `lastLeft?`;
* `travel`: how far the strokes go together;
* `Drag.drawn`: how far they go from some drag on. By `Drag.drawn_cons` it is the sum of the ways,
  and by `Drag.drawn_append` a history may be cut anywhere.
-/

namespace PanZoom

variable {α : Type}

/-- Whether the event presses the left button or lets it go, if it is about this button. -/
def Event.left? : Event α → Option Bool
  | .mousePressed .left _ => some true
  | .mouseReleased .left _ => some false
  | _ => none

def Event.move? : Event α → Option (Point α)
  | .mouseMoved position => some position
  | _ => none

/-- Whether the last event of the left button presses it, if there is one. -/
def lastLeft? (events : List (Event α)) : Option Bool :=
  events.reverse.findSome? Event.left?

/-- The places that the mouse is moved to before the next event of the left button. -/
def moves (events : List (Event α)) : List (Point α) :=
  (events.takeWhile (·.left?.isNone)).filterMap Event.move?

@[simp] theorem moves_nil : moves ([] : List (Event α)) = [] := rfl

theorem moves_cons_of_left {event : Event α} (h : event.left?.isSome) (events : List (Event α)) :
    moves (event :: events) = [] := by
  simp [moves, Option.isSome_iff_ne_none.mp h]

theorem moves_cons {event : Event α} (h : event.left? = none) (events : List (Event α)) :
    moves (event :: events) = event.move?.toList ++ moves events := by
  cases hmove : event.move? <;> simp [moves, h, hmove]

/-- A press of the left button, and the moves up to the next event of this button. -/
structure Stroke (α : Type) where
  start : Point α
  moves : List (Point α)
  deriving DecidableEq, Repr

namespace Stroke

/-- Where the stroke ends: the last place it was moved to, or else where it started. -/
def stop (s : Stroke α) : Point α :=
  s.moves.getLast?.getD s.start

variable {A : Type} [AddCommGroup A]

/-- How far the stroke goes, by some measure of places. -/
def span (f : Point α → A) (s : Stroke α) : A :=
  f s.stop - f s.start

theorem span_nil (f : Point α → A) (start : Point α) : span f ⟨start, []⟩ = 0 :=
  sub_self (f start)

/-- A stroke goes to its first move, and on from there. -/
theorem span_cons (f : Point α → A) (start first : Point α) (rest : List (Point α)) :
    span f ⟨start, first :: rest⟩ = f first - f start + span f ⟨first, rest⟩ := by
  have hstop : stop ⟨start, first :: rest⟩ = stop ⟨first, rest⟩ := by
    simp [stop, List.getLast?_cons]
  unfold span
  rw [hstop, add_comm, sub_add_sub_cancel]

end Stroke

/-- The strokes of a history that begins without one. -/
def strokes : List (Event α) → List (Stroke α)
  | [] => []
  | .mousePressed .left position :: events => ⟨position, moves events⟩ :: strokes events
  | _ :: events => strokes events

/-- Only events of the left button begin a stroke. -/
theorem strokes_cons {event : Event α} (h : event.left? = none) (events : List (Event α)) :
    strokes (event :: events) = strokes events := by
  cases event with
  | mousePressed button position =>
    cases button with
    | left => cases h
    | right | middle | other => rfl
  | resized | mouseReleased | mouseMoved | mouseWheel | keyPressed | keyReleased => rfl

/-- How far the strokes of a history go together, by some measure of places. -/
def travel {A : Type} [AddCommGroup A] (f : Point α → A) (events : List (Event α)) : A :=
  ((strokes events).map (Stroke.span f)).sum

/-! ## The drag -/

namespace Drag

def observe (d : Drag α) : Event α → Drag α
  | .mousePressed .left position => .running position
  | .mouseReleased .left _ => .idle
  | .mouseMoved position => if d.isRunning then .running position else .idle
  | _ => d

def observeAll (d : Drag α) (events : List (Event α)) : Drag α :=
  events.foldl observe d

theorem observeAll_append (d : Drag α) (events more : List (Event α)) :
    d.observeAll (events ++ more) = (d.observeAll events).observeAll more :=
  List.foldl_append

/-- Only events of the left button begin a drag or end it. -/
theorem isRunning_observe (d : Drag α) (event : Event α) :
    (d.observe event).isRunning = event.left?.getD d.isRunning := by
  cases event with
  | mousePressed button position => cases button <;> rfl
  | mouseReleased button position => cases button <;> rfl
  | mouseMoved position => cases d <;> rfl
  | resized | mouseWheel | keyPressed | keyReleased => rfl

/-- A drag is running if the last event of the left button is a press; if there was none, it is as
before. -/
theorem isRunning_observeAll (d : Drag α) (events : List (Event α)) :
    (d.observeAll events).isRunning = (lastLeft? events).getD d.isRunning :=
  status_foldl isRunning isRunning_observe d events

/-- What is left of the stroke that the drag is in, if it is in one. -/
def resumed (d : Drag α) (events : List (Event α)) : List (Stroke α) :=
  d.last?.toList.map (⟨·, moves events⟩)

variable {A : Type} [AddCommGroup A] (f : Point α → A) {event : Event α}

/-- How far the strokes go in the events, from a drag on. -/
def drawn (d : Drag α) (events : List (Event α)) : A :=
  ((d.resumed events ++ strokes events).map (Stroke.span f)).sum

/-- How far one event goes: a move while a drag runs, from the last known place. -/
def gain (d : Drag α) (event : Event α) : A :=
  match d.last?, event.move? with
  | some last, some position => f position - f last
  | _, _ => 0

theorem gain_of_still {d : Drag α} (h : event.move? = none ∨ d = .idle) : d.gain f event = 0 := by
  rcases h with h | rfl
  · cases d <;> simp [gain, h]
  · rfl

theorem drawn_idle (events : List (Event α)) : (idle : Drag α).drawn f events = travel f events :=
  rfl

theorem drawn_running (last : Point α) (events : List (Event α)) :
    (running last).drawn f events = Stroke.span f ⟨last, moves events⟩ + travel f events :=
  List.sum_cons

theorem drawn_nil (d : Drag α) : d.drawn f [] = 0 := by
  cases d with
  | idle => rfl
  | running last => rw [drawn_running, moves_nil, Stroke.span_nil, zero_add]; rfl

/-- The left button leaves nothing of the stroke before it. -/
theorem drawn_cons_of_left (d : Drag α) (h : event.left?.isSome) (events : List (Event α)) :
    d.drawn f (event :: events) = travel f (event :: events) := by
  cases d with
  | idle => rfl
  | running last => rw [drawn_running, moves_cons_of_left h, Stroke.span_nil, zero_add]

theorem drawn_cons_of_neither (d : Drag α) (hleft : event.left? = none) (hmove : event.move? = none)
    (events : List (Event α)) : d.drawn f (event :: events) = d.drawn f events := by
  unfold drawn resumed
  rw [moves_cons hleft, strokes_cons hleft, hmove]
  rfl

/-- The first event goes its own way, and the drag that it leaves goes the rest. -/
theorem drawn_cons (d : Drag α) (event : Event α) (events : List (Event α)) :
    d.drawn f (event :: events) = d.gain f event + (d.observe event).drawn f events := by
  -- All other buttons, the keys, the wheel and resizes leave the drag and its strokes alone.
  have hneither (hleft : event.left? = none) (hmove : event.move? = none)
      (hstays : d.observe event = d) :
      d.drawn f (event :: events) = d.gain f event + (d.observe event).drawn f events := by
    rw [d.drawn_cons_of_neither f hleft hmove, gain_of_still f (.inl hmove), zero_add, hstays]
  cases event with
  | mousePressed button position =>
    cases button with
    | left =>
      rw [d.drawn_cons_of_left f rfl, gain_of_still f (.inl rfl), zero_add]
      exact List.sum_cons
    | right | middle | other => exact hneither rfl rfl rfl
  | mouseReleased button position =>
    cases button with
    | left =>
      rw [d.drawn_cons_of_left f rfl, gain_of_still f (.inl rfl), zero_add]
      rfl
    | right | middle | other => exact hneither rfl rfl rfl
  | mouseMoved position =>
    cases d with
    | idle =>
      rw [gain_of_still f (.inr rfl), zero_add]
      rfl
    | running last =>
      have hmoves : moves (.mouseMoved position :: events) = position :: moves events :=
        moves_cons rfl events
      rw [drawn_running, hmoves, Stroke.span_cons, add_assoc]
      rfl
  | resized | mouseWheel | keyPressed | keyReleased => exact hneither rfl rfl rfl

/-- However long a history is, the strokes of the rest go on from the drag that it leaves. -/
theorem drawn_append (d : Drag α) (events more : List (Event α)) :
    d.drawn f (events ++ more) = d.drawn f events + (d.observeAll events).drawn f more := by
  induction events generalizing d with
  | nil => rw [List.nil_append, drawn_nil, zero_add]; rfl
  | cons event events ih =>
    rw [List.cons_append, drawn_cons, ih, drawn_cons, add_assoc]
    rfl

/-- From the drag that a history leaves, the strokes go as far as they have not gone before. -/
theorem drawn_observeAll (history events : List (Event α)) :
    ((idle : Drag α).observeAll history).drawn f events =
      travel f (history ++ events) - travel f history := by
  rw [← drawn_idle, ← drawn_idle, drawn_append, add_sub_cancel_left]

end Drag

end PanZoom
