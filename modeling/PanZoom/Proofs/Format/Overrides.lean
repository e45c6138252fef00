import PanZoom.Proofs.Format.Config
import PanZoom.Proofs.Format.Fields

/-!
# Configurations that are given in part

Everything but the version may be left out of a configuration file, a field or a whole section at a
time, and members with other names are passed over:

* `Config.Overrides`: the fields that a file gives;
* `Config.read_partial`: such a file is read as the defaults with those fields in their place.
-/

namespace PanZoom

namespace Config

open Json

/-- The fields that a file gives. -/
structure Overrides where
  zoomFactor : Option Float32
  panStep : Option Float32
  maxFramerate : Option Float
  modifier : Option ModifierKey
  zoomIn : Option Key
  zoomOut : Option Key
  recenter : Option Key
  logLevel : Option LogLevel

namespace Overrides

def bindings (o : Overrides) : Bindings where
  modifier := o.modifier.getD Bindings.default.modifier
  zoomIn := o.zoomIn.getD Bindings.default.zoomIn
  zoomOut := o.zoomOut.getD Bindings.default.zoomOut
  recenter := o.recenter.getD Bindings.default.recenter

/-- The defaults with the version and the given fields in their place. -/
def config (o : Overrides) (version : UInt32) : Config where
  version := version
  zoomFactor := o.zoomFactor.getD default.zoomFactor
  panStep := o.panStep.getD default.panStep
  maxFramerate := o.maxFramerate.getD default.maxFramerate
  bindings := o.bindings
  logLevel := o.logLevel.getD default.logLevel

structure GivenByCamera (o : Overrides) (members : List (String × Json)) : Prop where
  zoomFactor : Gives members "zoom_factor" toSingle? o.zoomFactor
  panStep : Gives members "pan_step" toSingle? o.panStep

structure GivenByBindings (o : Overrides) (members : List (String × Json)) : Prop where
  modifier : Gives members "modifier" ModifierKey.ofJson? o.modifier
  zoomIn : Gives members "zoom_in" (Key.ofJson? false) o.zoomIn
  zoomOut : Gives members "zoom_out" (Key.ofJson? false) o.zoomOut
  recenter : Gives members "recenter" (Key.ofJson? false) o.recenter

/-- The members of a file give the version and exactly these fields, each in its section. The order
of the members does not count, nor do members with other names. -/
structure GivenBy (o : Overrides) (version : UInt32) (members : List (String × Json)) : Prop where
  version : Gives members "version" toCount? (some version)
  camera : GivesSection members "camera" o.GivenByCamera
  rendering : GivesSection members "rendering" fun inner =>
    Gives inner "max_framerate" toDouble? o.maxFramerate
  bindings : GivesSection members "keybindings" o.GivenByBindings
  preferences : GivesSection members "preferences" fun inner =>
    Gives inner "log_level" LogLevel.ofJson? o.logLevel

variable {o : Overrides} {version : UInt32} {members : List (String × Json)}

theorem GivenByCamera.read (h : o.GivenByCamera members) :
    cameraOfJson? (.ofMembers members) =
      some (o.zoomFactor.getD default.zoomFactor, o.panStep.getD default.panStep) := by
  obtain ⟨zoomFactor, hzoomFactor, hzoomRead⟩ := h.zoomFactor.optional default.zoomFactor
  obtain ⟨panStep, hpanStep, hpanRead⟩ := h.panStep.optional default.panStep
  have hfields : (Json.ofMembers members).fields? cameraFieldNames =
      some [zoomFactor, panStep] := by
    simp [fields?_eq_mapM, cameraFieldNames, hzoomFactor, hpanStep]
  simp [cameraOfJson?, hfields, hzoomRead, hpanRead]

theorem read_rendering (h : Gives members "max_framerate" toDouble? o.maxFramerate) :
    renderingOfJson? (.ofMembers members) =
      some (o.maxFramerate.getD default.maxFramerate) := by
  obtain ⟨maxFramerate, hfield, hread⟩ := h.optional default.maxFramerate
  have hfields : (Json.ofMembers members).fields? renderingFieldNames = some [maxFramerate] := by
    simp [fields?_eq_mapM, renderingFieldNames, hfield]
  simp [renderingOfJson?, hfields, hread]

theorem GivenByBindings.read (h : o.GivenByBindings members) :
    Bindings.ofJson? (.ofMembers members) = some o.bindings := by
  obtain ⟨modifier, hmodifier, hmodifierRead⟩ := h.modifier.optional Bindings.default.modifier
  obtain ⟨zoomIn, hzoomIn, hzoomInRead⟩ := h.zoomIn.optional Bindings.default.zoomIn
  obtain ⟨zoomOut, hzoomOut, hzoomOutRead⟩ := h.zoomOut.optional Bindings.default.zoomOut
  obtain ⟨recenter, hrecenter, hrecenterRead⟩ := h.recenter.optional Bindings.default.recenter
  have hfields : (Json.ofMembers members).fields? Bindings.fieldNames =
      some [modifier, zoomIn, zoomOut, recenter] := by
    simp [fields?_eq_mapM, Bindings.fieldNames, hmodifier, hzoomIn, hzoomOut, hrecenter]
  simp only [Bindings.ofJson?, hfields, hmodifierRead, hzoomInRead, hzoomOutRead, hrecenterRead,
    Option.bind_eq_bind, Option.bind_some, Option.pure_def, bindings]

theorem read_preferences (h : Gives members "log_level" LogLevel.ofJson? o.logLevel) :
    preferencesOfJson? (.ofMembers members) = some (o.logLevel.getD default.logLevel) := by
  obtain ⟨logLevel, hfield, hread⟩ := h.optional default.logLevel
  have hfields : (Json.ofMembers members).fields? preferenceFieldNames = some [logLevel] := by
    simp [fields?_eq_mapM, preferenceFieldNames, hfield]
  simp [preferencesOfJson?, hfields, hread]

/-- The members stand for the defaults with what they give in its place. -/
theorem GivenBy.read (h : o.GivenBy version members) :
    ofJson? (.ofMembers members) = some (o.config version) := by
  obtain ⟨given, hversion, hversionRead⟩ := h.version.required
  obtain ⟨camera, hcamera, hcameraRead⟩ :=
    h.camera.optional (fun _ hinner => hinner.read) (by rfl)
  obtain ⟨rendering, hrendering, hrenderingRead⟩ :=
    h.rendering.optional (fun _ hinner => read_rendering hinner) (by rfl)
  have hempty : Bindings.ofJson? (.ofMembers []) = some default.bindings := rfl
  obtain ⟨bindings, hbindings, hbindingsRead⟩ :=
    h.bindings.optional (fun _ hinner => hinner.read) hempty
  obtain ⟨preferences, hpreferences, hpreferencesRead⟩ :=
    h.preferences.optional (fun _ hinner => read_preferences hinner) (by rfl)
  have hfields : (Json.ofMembers members).fields? fieldNames =
      some [given, camera, rendering, bindings, preferences] := by
    simp [fields?_eq_mapM, fieldNames, hversion, hcamera, hrendering, hbindings, hpreferences]
  simp only [ofJson?, hfields, hversionRead, hcameraRead, hrenderingRead, hbindingsRead,
    hpreferencesRead, Option.bind_eq_bind, Option.bind_some, Option.pure_def, config]

end Overrides

variable {text : String} {o : Overrides} {version : UInt32} {members : List (String × Json)}

theorem read_of_givenBy (htext : IsTextOf text (.ofMembers members))
    (hgiven : o.GivenBy version members) (hversion : version ≤ newestVersion) :
    read text = .ok (o.config version).sanitized := by
  rw [read_eq_ok_iff]
  refine ⟨o.config version, ?_, hversion, rfl⟩
  rw [parse?_of_isTextOf htext, Option.bind_some, hgiven.read]

/-- **What is left out has its default.** Every text of an object that gives a known version and any
of the fields is read as the defaults with those fields in their place, and then repaired. So two
texts are read alike if what they give comes to the same, whether a default is spelled out, left out
or left out together with its section. -/
theorem read_partial (htext : IsTextOf text (.ofMembers members))
    (hgiven : o.GivenBy version members) (hversion : version ≤ newestVersion) :
    (read text = .ok (o.config version).sanitized ∧
      (o.config version).sanitized.IsRepairOf (o.config version)) ∧
    ∀ (other : String) (more : List (String × Json)) (given : Overrides),
      IsTextOf other (.ofMembers more) → given.GivenBy version more →
      given.config version = o.config version → read other = read text := by
  have hread := read_of_givenBy htext hgiven hversion
  refine ⟨⟨hread, sanitized_isRepairOf _⟩, fun other more given hother hmore hsame => ?_⟩
  rw [read_of_givenBy hother hmore hversion, hread, hsame]

/-- Zooming out is put on the key that zooming in has by default. A member that is not known holds a
number that no one could read. -/
def clashingOverrides : Overrides :=
  { zoomFactor := none, panStep := none, maxFramerate := some 144, modifier := none, zoomIn := none
    zoomOut := some .plus, recenter := none, logLevel := none }

def clashingMembers : List (String × Json) :=
  [("keybindings", .ofMembers [("zoom_out", .ofString "plus")]),
    ("theme", .array [.number { Numeral.ofNat 1 with exponent := some 999 }]),
    ("camera", .ofMembers []), ("rendering", .ofMembers [("max_framerate", .ofNat 144)]),
    ("version", .ofNat 1)]

def clashingText : String :=
  "\x7b\"keybindings\":\t\x7b\"zoom_out\":\"plus\"\x7d ,\"theme\":[1E+999],\"camera\":\x7b\x7d," ++
    "\"rendering\":\x7b\"max_framerate\":144\x7d,\"version\":1\x7d"

theorem isTextOf_clashing : IsTextOf clashingText (.ofMembers clashingMembers) := by
  have hname (name : String) : SpellsName (some name) (quoted name) := by
    simpa [wordText] using spells_name areBlanks_nil (w := some name) rfl areBlanks_nil
  have hkeys := spells_compactText (.ofMembers [("zoom_out", .ofString "plus")])
    (isWritable_ofMembers (by simp [isWritable_ofString]))
  have hexponent : Numeral.SpellsExponent (some 999)
      ('E' :: '+' :: Decimal.digitText (Decimal.digitsOf 999)) := by
    have hspelled := Numeral.SpellsExponent.plus (.inr rfl : 'E' = 'e' ∨ 'E' = 'E')
      (Decimal.isPlain_digitsOf 999).nonempty
    rwa [Decimal.ofDigits_digitsOf] at hspelled
  have hnumeral : Numeral.Spells { Numeral.ofNat 1 with exponent := some 999 } _ :=
    ⟨Numeral.isProper_ofNat 1, _, hexponent, rfl⟩
  have htheme := (Spells.number hnumeral).bare.lastItem.array.bare
  have hcamera := (Spells.noMembers areBlanks_nil).object.bare
  have hnumber (n : Nat) := (Spells.number (Numeral.spells_text (Numeral.isProper_ofNat n))).bare
  have hrendering := (Spells.lastMember (hname "max_framerate") (hnumber 144)).object
  have htab : AreBlanks ['\t'] := by simp [AreBlanks]
  have hfirst := Spells.spaced htab hkeys areBlanks_blank
  have hwhole := (Spells.member (hname "keybindings") hfirst (.member (hname "theme") htheme
    (.member (hname "camera") hcamera (.member (hname "rendering") hrendering.bare
      (.lastMember (hname "version") (hnumber 1)))))).object.bare
  rw [IsTextOf]
  convert hwhole using 1
  · rfl
  · decide +kernel

theorem read_partial_clashing :
    (IsTextOf clashingText (.ofMembers clashingMembers) ∧
      clashingOverrides.GivenBy 1 clashingMembers ∧ 1 ≤ newestVersion) ∧
    read clashingText = .ok (clashingOverrides.config 1).sanitized ∧
    (clashingOverrides.config 1).sanitized =
      { default with maxFramerate := 144, bindings := Bindings.default } ∧
    (clashingOverrides.config 1).bindings.zoomOut = .plus := by
  have hempty {α : Type} (name : String) (read : Json → Option α) : Gives [] name read none :=
    .omitted (List.not_mem_nil)
  have hbindings : clashingOverrides.GivenByBindings [("zoom_out", .ofString "plus")] :=
    ⟨.omitted (by decide), .omitted (by decide), .given rfl rfl, .omitted (by decide)⟩
  have hrun : (Json.ofNat 144).toDouble? = some 144 ∧ (clashingOverrides.config 1).sanitized =
      { default with maxFramerate := 144, bindings := Bindings.default } := by
    decide +kernel
  have hcap : Gives [("max_framerate", .ofNat 144)] "max_framerate" toDouble? (some 144) :=
    .given rfl hrun.1
  have hgiven : clashingOverrides.GivenBy 1 clashingMembers :=
    { version := .given rfl (toCount?_ofNat 1)
      camera := .present rfl ⟨hempty _ _, hempty _ _⟩
      rendering := .present rfl hcap
      bindings := .present rfl hbindings
      preferences := .omitted (by decide) (hempty _ _) }
  have hversion : 1 ≤ newestVersion := by decide
  have hread := (read_partial isTextOf_clashing hgiven hversion).1.1
  exact ⟨⟨isTextOf_clashing, hgiven, hversion⟩, hread, hrun.2, rfl⟩

end Config

end PanZoom
