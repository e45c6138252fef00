import PanZoom.Proofs.Viewer.Redraw

namespace PanZoom.Viewer

variable {α : Type} [Scalar α] {v w u : Viewer α} {stage : Stage α} {image : ImageBuffer α}

/-- The camera has published its view on the given stage, and the viewer's stage is the outcome. -/
def Published (v : Viewer α) (stage : Stage α) : Prop :=
  v.camera.publish stage = .done v.camera v.stage ()

theorem Published.awaits (h : v.Published stage) : v.awaits = true := by
  unfold Published Camera.publish at h
  split at h
  · cases h
  · rename_i node hnode
    have hstage : stage.update v.camera.node (·.publish v.camera.viewPose) = v.stage := by
      injection h
    unfold Viewer.awaits
    rw [← hstage, awaitsRedraw_publish hnode, Bool.true_or]

/-- With both flags down, the renderer is told of what was published and of nothing else. -/
theorem Settles.awaits_iff (h : v.Settles w) (hv : v.Current image) (hdown : v.awaits = false) :
    w.awaits = true ↔ w.Published v.stage := by
  refine ⟨?_, Published.awaits⟩
  intro hawaits
  unfold Settles at h
  unfold Viewer.awaits at hawaits hdown
  unfold Published
  generalize w.camera = camera, w.stage = stage at h hawaits ⊢
  cases h with
  | unchanged =>
    rw [hdown] at hawaits
    cases hawaits
  | published hnode hbuffer =>
    have hseated : camera.Seated v.stage image := hv.toSeated.of_nodes hnode hbuffer
    rw [hseated.publish, hnode]

/-- Of two operations, the second leaves up what the first raised. -/
theorem Settles.awaits_iff_either (h : v.Settles w) (hnext : w.Settles u) (hv : v.Current image)
    (hdown : v.awaits = false) :
    u.awaits = true ↔ w.Published v.stage ∨ u.Published w.stage := by
  have hw : w.Current image := h.current hv
  have hfirst := h.awaits_iff hv hdown
  cases hawaits : w.awaits with
  | true =>
    have hup : u.awaits = true := by
      rcases hnext.noticed hw with ⟨-, hsame⟩ | hup
      · rw [hsame, hawaits]
      · exact hup
    exact iff_of_true hup (.inl (hfirst.mp hawaits))
  | false =>
    rw [hnext.awaits_iff hw hawaits, ← hfirst, hawaits]
    simp

/-- The event publishes, or the frame after it does. -/
def Publishes (v : Viewer α) (event : Event α) : Prop :=
  (v.handle event).1.Published v.stage ∨
    (v.handle event).1.tick.1.Published (v.handle event).1.stage

/-- The event ends, and the frame after it does. -/
structure Proceeds (v : Viewer α) (event : Event α) : Prop where
  handle : (v.handle event).2 ≠ .error .endless
  tick : (v.handle event).1.tick.2 ≠ .error .endless

variable {event : Event α}

/-- The renderer is told exactly if one of the two has published, provided that it had been told of
everything before. -/
theorem Current.awaits_iff_publishes (h : v.Current image) (hends : v.Proceeds event)
    (hdown : v.awaits = false) :
    (v.handle event).1.tick.1.awaits = true ↔ v.Publishes event := by
  have hhandled := h.handle_settles hends.handle
  exact hhandled.awaits_iff_either ((hhandled.current h).tick_settles hends.tick) h hdown

/-- What the renderer had not been told of before, it is still to be told of. -/
theorem Current.awaits_of_awaits (h : v.Current image) (hends : v.Proceeds event)
    (hup : v.awaits = true) : (v.handle event).1.tick.1.awaits = true := by
  have hhandled := h.handle_settles hends.handle
  have hcurrent := hhandled.current h
  have hnoticed := (hhandled.noticed h).trans ((hcurrent.tick_settles hends.tick).noticed hcurrent)
  rcases hnoticed with ⟨-, hsame⟩ | hafter
  · rw [hsame, hup]
  · exact hafter

theorem Proceeds.reachable (hends : v.Proceeds event) (h : Reachable image v) :
    Reachable image (v.handle event).1.tick.1 := by
  have hhandled := h.perform (.handle event) (map_ne_endless_iff.mpr hends.handle)
  exact hhandled.perform .tick (map_ne_endless_iff.mpr hends.tick)

theorem create_published {settings : Settings α} {size : Size}
    (h : create image settings size = .ok v) : v.Published (opening image) := by
  have hseated : ((Camera.ofNodes ⟨1, 0⟩ ⟨0, 0⟩ settings).resize size).Seated (opening image)
      image := (seated_opening image settings).of_nodes rfl rfl
  obtain ⟨pose, hgeometry⟩ := hseated.bufferGeometry
  rw [create_eq] at h
  unfold Camera.fitTo at h
  cases hpower : (((Camera.ofNodes ⟨1, 0⟩ ⟨0, 0⟩ settings).resize size).fitting pose image).power?
    with
  | none =>
    rw [Camera.fit_of_power?_eq_none hgeometry hpower] at h
    cases h
  | some power =>
    have hfitted : ({ (Camera.ofNodes ⟨1, 0⟩ ⟨0, 0⟩ settings).resize size with
        zoomPower := power }).Seated (opening image) image := hseated.of_nodes rfl rfl
    rw [Camera.fit_of_power?_eq_some hgeometry hpower, hfitted.publish] at h
    cases h
    exact hfitted.publish

end PanZoom.Viewer
