import PanZoom.Format.Config
import PanZoom.Proofs.Config.Repair
import PanZoom.Proofs.Format.Keys

/-!
# Configurations that are read back

A configuration with finite numbers is written as a text that is read back as it was, and then
repaired. A configuration that was read needs no repair, so writing and reading it changes nothing.

* `Config.HasFiniteNumbers`: a number that is not finite has no decimal;
* `Config.NumbersReadBack`: the decimals of the numbers stand for the numbers they are written for;
* `Config.ofJson?_toJson`: what is written stands for the configuration as it was;
* `Config.read_write`: the text of a configuration is read as its repair, and a configuration that
  was read is read again from its own text.
-/

namespace PanZoom

namespace LogLevel

theorem mem_every (l : LogLevel) : l ∈ every := by
  cases l <;> decide

theorem ofJson?_toJson (l : LogLevel) : ofJson? l.toJson = some l :=
  Json.find?_name name (mem_every l) (by decide)

theorem isWritable_toJson (l : LogLevel) : l.toJson.IsWritable :=
  Json.isWritable_ofString l.name

end LogLevel

namespace Config

variable {c : Config}

structure HasFiniteNumbers (c : Config) : Prop where
  zoomFactor : c.zoomFactor.isFinite
  panStep : c.panStep.isFinite
  maxFramerate : c.maxFramerate.isFinite

/-- The decimal that is written for a finite number is read as that number. Reading rounds twice, so
this does not follow from the choice of the digits. -/
structure NumbersReadBack (c : Config) : Prop where
  zoomFactor : c.zoomFactor.isFinite → (Json.ofSingle c.zoomFactor).toSingle? = some c.zoomFactor
  panStep : c.panStep.isFinite → (Json.ofSingle c.panStep).toSingle? = some c.panStep
  maxFramerate :
    c.maxFramerate.isFinite → (Json.ofDouble c.maxFramerate).toDouble? = some c.maxFramerate

theorem HasFitNumbers.finite (h : c.HasFitNumbers) : c.HasFiniteNumbers :=
  ⟨h.zoomFactor.1, h.panStep.1, h.maxFramerate.1⟩

def cameraJson (c : Config) : Json :=
  .ofMembers [("zoom_factor", .ofSingle c.zoomFactor), ("pan_step", .ofSingle c.panStep)]

def renderingJson (c : Config) : Json :=
  .ofMembers [("max_framerate", .ofDouble c.maxFramerate)]

def preferencesJson (c : Config) : Json :=
  .ofMembers [("log_level", c.logLevel.toJson)]

theorem cameraOfJson?_cameraJson (hfinite : c.HasFiniteNumbers) (hback : c.NumbersReadBack) :
    cameraOfJson? c.cameraJson = some (c.zoomFactor, c.panStep) := by
  have hfields : c.cameraJson.fields? cameraFieldNames =
      some [some (.ofSingle c.zoomFactor), some (.ofSingle c.panStep)] :=
    Json.fields?_ofMembers rfl (by decide)
  simp only [cameraOfJson?, hfields, Json.optional, hback.zoomFactor hfinite.zoomFactor,
    hback.panStep hfinite.panStep, Option.bind_eq_bind, Option.bind_some, Option.pure_def]

theorem renderingOfJson?_renderingJson (hfinite : c.HasFiniteNumbers) (hback : c.NumbersReadBack) :
    renderingOfJson? c.renderingJson = some c.maxFramerate := by
  have hfields : c.renderingJson.fields? renderingFieldNames =
      some [some (.ofDouble c.maxFramerate)] := Json.fields?_ofMembers rfl (by decide)
  simp only [renderingOfJson?, hfields, Json.optional, hback.maxFramerate hfinite.maxFramerate]

theorem preferencesOfJson?_preferencesJson (c : Config) :
    preferencesOfJson? c.preferencesJson = some c.logLevel := by
  have hfields : c.preferencesJson.fields? preferenceFieldNames =
      some [some c.logLevel.toJson] := Json.fields?_ofMembers rfl (by decide)
  simp only [preferencesOfJson?, hfields, Json.optional, LogLevel.ofJson?_toJson]

/-- What is written for a configuration stands for it as it was, not yet repaired. -/
theorem ofJson?_toJson (hfinite : c.HasFiniteNumbers) (hback : c.NumbersReadBack) :
    ofJson? c.toJson = some c := by
  have hfields : c.toJson.fields? fieldNames =
      some [some (.ofNat c.version.toNat), some c.cameraJson, some c.renderingJson,
        some c.bindings.toJson, some c.preferencesJson] := Json.fields?_ofMembers rfl (by decide)
  simp only [ofJson?, hfields, Json.required, Json.optional, Json.toCount?_ofNat,
    cameraOfJson?_cameraJson hfinite hback, renderingOfJson?_renderingJson hfinite hback,
    Bindings.ofJson?_toJson, preferencesOfJson?_preferencesJson, Option.bind_eq_bind,
    Option.bind_some, Option.pure_def]

theorem isWritable_toJson (c : Config) : c.toJson.IsWritable := by
  have hcamera : c.cameraJson.IsWritable :=
    Json.isWritable_ofMembers (by simp [Json.ofSingle, Json.isWritable_ofValue])
  have hrendering : c.renderingJson.IsWritable :=
    Json.isWritable_ofMembers (by simp [Json.ofDouble, Json.isWritable_ofValue])
  have hpreferences : c.preferencesJson.IsWritable :=
    Json.isWritable_ofMembers (by simp [LogLevel.isWritable_toJson])
  have hmembers : ∀ m ∈ [("version", Json.ofNat c.version.toNat), ("camera", c.cameraJson),
      ("rendering", c.renderingJson), ("keybindings", c.bindings.toJson),
      ("preferences", c.preferencesJson)], m.2.IsWritable := by
    simp [Json.isWritable_ofNat, hcamera, hrendering, Bindings.isWritable_toJson, hpreferences]
  exact Json.isWritable_ofMembers hmembers

/-- A text is read as the repair of the configuration that it stands for. -/
theorem read_eq_ok_iff {text : String} {r : Config} : read text = .ok r ↔
    ∃ c, (Json.parse? text).bind ofJson? = some c ∧ c.version ≤ newestVersion ∧
      c.sanitized = r := by
  unfold read
  split
  · rename_i hnone
    simp [hnone]
  · rename_i given hgiven
    simp only [hgiven, Option.some.injEq, exists_eq_left']
    split
    · rename_i hnewer
      simp [UInt32.not_le.mpr hnewer]
    · rename_i hknown
      simp [UInt32.not_lt.mp hknown]

theorem read_write_eq (hversion : c.version ≤ newestVersion) (hfinite : c.HasFiniteNumbers)
    (hback : c.NumbersReadBack) : read c.write = .ok c.sanitized := by
  rw [read_eq_ok_iff]
  refine ⟨c, ?_, hversion, rfl⟩
  rw [write, Json.parse?_of_isTextOf (Json.isTextOf_pretty (isWritable_toJson c)),
    Option.bind_some, ofJson?_toJson hfinite hback]

/-- A configuration that was read has a known version and is its own repair. -/
theorem sound_of_read {text : String} (h : read text = .ok c) :
    c.version ≤ newestVersion ∧ c.HasFiniteNumbers ∧ c.sanitized = c := by
  obtain ⟨given, -, hversion, rfl⟩ := read_eq_ok_iff.mp h
  exact ⟨hversion, (hasFitNumbers_sanitized given).finite, sanitized_sanitized given⟩

/-- **Configurations are read back.** A configuration of a known version with finite numbers is read
from its own text as its repair. A configuration that was read from any text is read from its own
text as it is. -/
theorem read_write :
    (∀ c : Config, c.version ≤ newestVersion → c.HasFiniteNumbers → c.NumbersReadBack →
      read c.write = .ok c.sanitized ∧ c.sanitized.IsRepairOf c) ∧
    (∀ (text : String) (c : Config), read text = .ok c → c.NumbersReadBack →
      read c.write = .ok c) := by
  constructor
  · intro c hversion hfinite hback
    exact ⟨read_write_eq hversion hfinite hback, sanitized_isRepairOf c⟩
  · intro text c hread hback
    obtain ⟨hversion, hfinite, hsame⟩ := sound_of_read hread
    rw [read_write_eq hversion hfinite hback, hsame]

/-- Two of the numbers do not fit, both zoom keys are set to a quote and recentring to an arrow. -/
def clashing : Config :=
  { version := 0
    zoomFactor := 0.5
    panStep := -2.25
    maxFramerate := 0.1
    bindings := ⟨.alt, .char '"', .char '"', .up⟩
    logLevel := .trace }

theorem read_write_clashing :
    (clashing.version ≤ newestVersion ∧ clashing.HasFiniteNumbers ∧ clashing.NumbersReadBack ∧
      clashing.sanitized.NumbersReadBack) ∧
    (read clashing.write = .ok clashing.sanitized ∧ clashing.sanitized.IsRepairOf clashing) ∧
    clashing.sanitized.bindings = ⟨.alt, .char '"', .minus, .home⟩ ∧
    read clashing.sanitized.write = .ok clashing.sanitized := by
  have hversion : clashing.version ≤ newestVersion := by decide
  have hfinite : clashing.HasFiniteNumbers := ⟨by decide, by decide, by decide⟩
  have hback : clashing.NumbersReadBack :=
    ⟨fun _ => by with_unfolding_all decide, fun _ => by with_unfolding_all decide,
      fun _ => by with_unfolding_all decide⟩
  have hrepairedBack : clashing.sanitized.NumbersReadBack :=
    ⟨fun _ => by with_unfolding_all decide, fun _ => by with_unfolding_all decide,
      fun _ => by with_unfolding_all decide⟩
  have hread := read_write.1 clashing hversion hfinite hback
  exact ⟨⟨hversion, hfinite, hback, hrepairedBack⟩, hread, by decide,
    read_write.2 clashing.write clashing.sanitized hread.1 hrepairedBack⟩

end Config

end PanZoom
