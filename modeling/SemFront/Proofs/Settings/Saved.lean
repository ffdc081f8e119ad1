/-
Saved settings are loaded again. A file is written from the settings one by one, lists without elements left
out. Where its format is read back faithfully, as a record with a member for each setting that was written,
loading changes the built-in settings to exactly these. So everything comes back but a list of included
patterns without elements: the built-in patterns come back in its place.
-/
import Mathlib.Data.List.Forall2
import SemFront.Proofs.Files.Write
import SemFront.Settings.Yaml

namespace SemFront

theorem Setting.meaning_key (s : Setting) (quoted : Bool) : Yaml.meaning quoted s.key = .text := by
  cases quoted with
  | true => rfl
  | false => cases s <;> rw [key] <;> decide +kernel

theorem Setting.key_ne_mergeSign (s : Setting) : s.key ≠ Yaml.mergeSign := by
  cases s <;> simp [key, Yaml.mergeSign]

namespace Settings

/-! ## Files that are read back -/

/-- A member of a record stands for a setting: it has its key, and its value is read as the setting. -/
structure Represents (s : Setting) (m : Yaml × Yaml) : Prop where
  isScalar : m.1.sameShape (Yaml.nothing 0) = true
  key : m.1.text = s.key
  value : settingOf s.key m.2 = (some s, [])

instance (s : Setting) (m : Yaml × Yaml) : Decidable (Represents s m) :=
  decidable_of_iff
    (m.1.sameShape (Yaml.nothing 0) = true ∧ m.1.text = s.key ∧ settingOf s.key m.2 = (some s, []))
    ⟨fun h => ⟨h.1, h.2.1, h.2.2⟩, fun h => ⟨h.isScalar, h.key, h.value⟩⟩

/-- The members of a text that is one record. -/
def membersOf (f : SettingsFormat) (text : String) : Option Members :=
  match f.read text with
  | some (some (.record _ ms)) => some ms
  | _ => none

/-- A text is read back as some settings: it is a record with one member for each of them. -/
def ReadsBack (f : SettingsFormat) (text : String) (ss : List Setting) : Prop :=
  ∃ ms ∈ membersOf f text, List.Forall₂ Represents ss ms

instance (f : SettingsFormat) (text : String) (ss : List Setting) : Decidable (ReadsBack f text ss) :=
  inferInstanceAs (Decidable (∃ ms ∈ membersOf f text, List.Forall₂ Represents ss ms))

section Members

variable {s : Setting} {ss : List Setting} {m : Yaml × Yaml} {ms : Members}

theorem Represents.not_merge (h : Represents s m) : m.1.isMergeKey = false := by
  have hkey := h.key
  have hne := s.key_ne_mergeSign
  cases hm : m.1 with
  | scalar line quoted text =>
    rw [hm] at hkey
    cases quoted with
    | true => rfl
    | false => simpa [Yaml.isMergeKey, ← hkey, Yaml.text] using hne
  | list line items => rfl
  | record line members => rfl

theorem Represents.asString (h : Represents s m) : Settings.asString m.1 = (some s.key, []) := by
  have hshape := h.isScalar
  have hkey := h.key
  cases hm : m.1 with
  | scalar line quoted text =>
    rw [hm] at hkey
    obtain rfl : text = s.key := hkey
    simp [Settings.asString, s.meaning_key quoted]
  | list line items => rw [hm] at hshape; cases hshape
  | record line members => rw [hm] at hshape; cases hshape

/-! ## Records without a key twice -/

theorem duplicates_eq_nil (h : ms.Pairwise fun a b => a.1.text ≠ b.1.text) : duplicates ms = [] := by
  induction ms with
  | nil => rfl
  | cons m ms ih =>
    obtain ⟨hm, hms⟩ := List.pairwise_cons.1 h
    rw [duplicates, ih hms, List.append_nil, List.filterMap_eq_nil_iff]
    intro other hother
    simp [hm other hother]

/-- A record whose keys are no merge keys has nothing merged into it. -/
theorem mergedInto_eq (h : ∀ m ∈ ms, m.1.isMergeKey = false) : mergedInto ms = some [] := by
  induction ms with
  | nil => rw [mergedInto]
  | cons m ms ih =>
    obtain ⟨hm, hms⟩ := List.forall_mem_cons.1 h
    obtain ⟨key, value⟩ := m
    cases value <;> rw [mergedInto, if_neg (by simpa using hm), ih hms]

theorem layers_eq (hdup : duplicates ms = []) (hmerge : ∀ m ∈ ms, m.1.isMergeKey = false) :
    layers ms = some [ms] := by
  rw [layers, if_pos hdup, mergedInto_eq hmerge]
  rfl

/-! ## Reading the members -/

/-- A member whose key is new adds its setting. -/
theorem Represents.readMember (h : Represents s m) {p : Progress} (hnew : s.key ∉ p.keys) :
    p.readMember m = { keys := s.key :: p.keys, settings := p.settings ++ [s], misfits := p.misfits } := by
  unfold Progress.readMember
  rw [h.not_merge, h.asString]
  simp [hnew, h.value]

/-- Members with different keys add their settings in order. -/
theorem foldl_readMember (h : List.Forall₂ Represents ss ms) : ∀ {p : Progress}, (ss.map Setting.key).Nodup →
    (∀ s ∈ ss, s.key ∉ p.keys) → (ms.foldl Progress.readMember p).settings = p.settings ++ ss ∧
      (ms.foldl Progress.readMember p).misfits = p.misfits := by
  induction h with
  | nil => exact fun _ _ => ⟨(List.append_nil _).symm, rfl⟩
  | @cons s m ss ms hm _ ih =>
    -- the key that is read here is none of those that come later
    intro p hnodup hnew
    obtain ⟨hs, hss⟩ := List.nodup_cons.1 hnodup
    obtain ⟨hkey, hkeys⟩ := List.forall_mem_cons.1 hnew
    rw [List.foldl_cons, hm.readMember hkey]
    have hrest := @ih { keys := s.key :: p.keys, settings := p.settings ++ [s], misfits := p.misfits } hss ?_
    · rwa [List.append_assoc] at hrest
    · intro u hu hmem
      rcases List.mem_cons.1 hmem with heq | hmem
      · exact hs (heq ▸ List.mem_map_of_mem hu)
      · exact hkeys u hu hmem

theorem forall₂_text (h : List.Forall₂ Represents ss ms) : ms.map (·.1.text) = ss.map Setting.key := by
  induction h with
  | nil => rfl
  | cons hm _ ih => rw [List.map_cons, List.map_cons, hm.key, ih]

theorem forall₂_not_merge (h : List.Forall₂ Represents ss ms) : ∀ m ∈ ms, m.1.isMergeKey = false := by
  induction h with
  | nil => simp
  | cons hm _ ih => exact List.forall_mem_cons.2 ⟨hm.not_merge, ih⟩

/-- A record that has a member for each of some settings with different keys makes these settings. -/
theorem ofYaml_record (h : List.Forall₂ Represents ss ms) (hnodup : (ss.map Setting.key).Nodup) (line : Nat) :
    ofYaml (.record line ms) = some (.ok ss) := by
  have hdup : duplicates ms = [] := by
    refine duplicates_eq_nil (List.pairwise_map.1 (?_ : (ms.map (·.1.text)).Nodup))
    rwa [forall₂_text h]
  obtain ⟨hsettings, hmisfits⟩ := foldl_readMember h (p := {}) hnodup (by simp)
  have hread : ([ms].foldl Progress.readLayer {}) = ms.foldl Progress.readMember {} := by
    simp only [List.foldl_cons, List.foldl_nil, Progress.readLayer, hdup]
  rw [ofYaml, layers_eq hdup (forall₂_not_merge h), Option.map_some]
  dsimp only
  rw [hread, hmisfits, hsettings]
  rfl

end Members

/-- A text that is read back as some settings with different keys changes the built-in settings to these. -/
theorem ofText_of_readsBack {f : SettingsFormat} {text : String} {ss : List Setting} (h : ReadsBack f text ss)
    (hnodup : (ss.map Setting.key).Nodup) (path : String) : ofText f path text = .ok (ofSaved ss) := by
  obtain ⟨ms, hms, hss⟩ := h
  unfold membersOf at hms
  split at hms
  · rename_i line members hread
    obtain rfl : members = ms := Option.some.inj hms
    rw [ofText, hread]
    dsimp only
    rw [ofYaml_record hss hnodup]
  · cases hms

/-! ## Saved settings -/

theorem saved_keys_nodup (s : Settings) : (s.saved.map Setting.key).Nodup := by
  unfold saved
  split <;> split <;> simp [Setting.key]

/-- The settings with the built-in patterns for an empty list of included ones. -/
def withPatterns (s : Settings) : Settings :=
  if s.included = [] then { s with included := ({} : Settings).included } else s

/-- What is saved makes the settings again, but for an empty list of included patterns. -/
theorem ofSaved_saved (s : Settings) : ofSaved s.saved = s.withPatterns := by
  obtain ⟨level, format, maxErrors, workers, normalize, included, excluded⟩ := s
  cases included <;> cases excluded <;> rfl

/-- A file that is read back as settings that were saved is loaded as these, if nothing in the environment
overrides them. -/
theorem load_of_readsBack {f : SettingsFormat} {s : Settings} (h : ReadsBack f (s.text f) s.saved) {d : Disk}
    {path : String} (hfile : d.read path = .ok (s.text f)) : load f d {} path = .ok s.withPatterns := by
  have hofFile : ofFile f d path = .ok (ofSaved s.saved) := by
    rw [ofFile, hfile]
    exact ofText_of_readsBack h s.saved_keys_nodup path
  rw [load, hofFile, ofSaved_saved]
  rfl

/-- Settings that were saved in a format that is read back faithfully are loaded as they were from any file that
has their text, if nothing in the environment overrides them; only for an empty list of included patterns the
built-in patterns are loaded. In particular, wherever a file can be written, settings can be saved and are loaded
from there. -/
theorem load_saved {f : SettingsFormat} {s : Settings} (h : ReadsBack f (s.text f) s.saved) :
    (∀ (d : Disk) (path : String), d.read path = .ok (s.text f) → load f d {} path = .ok s.withPatterns) ∧
    ∀ (t : FileTree) (path : String), t.TakesFile path →
      ∃ u, s.save f t path = .ok u ∧ load f u.disk {} path = .ok s.withPatterns := by
  refine ⟨fun d path => load_of_readsBack h, fun t path ht => ?_⟩
  have hwrite : t.writeFile path (s.text f) = .ok (t.write path (s.text f)) :=
    FileTree.writeFile_eq_ok.2 ⟨ht, rfl⟩
  refine ⟨_, ?_, load_of_readsBack h (FileTree.read_writeFile hwrite)⟩
  rw [save, hwrite]
  rfl

/-- Settings with none of the built-in values, whose texts are written in different ways. -/
def farFromBuiltIn : Settings where
  logLevel := ""
  format := "null"
  maxErrors := -7
  workers := 0
  normalize := false
  included := ["*.sem", "a: b"]
  excluded := ["true"]

/-- A directory with a settings file in a directory. -/
def configured : FileTree := .directory [("conf", .directory [("semlang.yaml", .file "workers: 2\n")])]

theorem configured_takesFile : configured.TakesFile "./conf/../conf/semlang.yaml" :=
  (FileTree.writeFile_eq_ok (c := "") (u := configured.write "./conf/../conf/semlang.yaml" "")).1 rfl |>.1

theorem load_saved_farFromBuiltIn :
    ReadsBack yaml (farFromBuiltIn.text yaml) farFromBuiltIn.saved ∧
      ∃ u, farFromBuiltIn.save yaml configured "./conf/../conf/semlang.yaml" = .ok u ∧
        load yaml u.disk {} "./conf/../conf/semlang.yaml" = .ok farFromBuiltIn := by
  have h : ReadsBack yaml (farFromBuiltIn.text yaml) farFromBuiltIn.saved := by decide +kernel
  exact ⟨h, (load_saved h).2 configured _ configured_takesFile⟩

/-- Settings without included patterns are read back faithfully, and yet other ones are loaded. -/
theorem load_saved_no_patterns :
    let s : Settings := { included := [] }
    ReadsBack yaml (s.text yaml) s.saved ∧
      (∃ u, s.save yaml configured "conf/semlang.yaml" = .ok u ∧ load yaml u.disk {} "conf/semlang.yaml" = .ok {}) ∧
      ({} : Settings) ≠ s := by
  intro s
  have h : ReadsBack yaml (s.text yaml) s.saved := by decide +kernel
  have hwrite : configured.writeFile "conf/semlang.yaml" (s.text yaml) =
    .ok (configured.write "conf/semlang.yaml" (s.text yaml)) := rfl
  exact ⟨h, ⟨_, rfl, load_of_readsBack h (FileTree.read_writeFile hwrite)⟩, by decide⟩

end Settings
end SemFront
