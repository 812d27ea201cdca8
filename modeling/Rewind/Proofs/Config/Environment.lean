import Mathlib.Data.List.Nodup
import Mathlib.Data.List.Pairwise
import Mathlib.Data.UInt
import Rewind.Config.Environment

/-!
Settings from variables in any order. Every setting has a place of its own in the configuration, so
only variables that are named after one setting, in letters of different case, can stand in each
other's way; of these the last one counts. Main statement: the order of the variables does not
decide whether they can be taken, and it decides what a setting becomes only by which of its
variables is the last (`applyOverrides_perm`).
-/

namespace Rewind.Config

/-! ## Settings -/

/-- Where one of two settings is set, the other stays as it is. -/
def Independent (s t : Setting) : Prop :=
  (∀ v c, s.get (t.set v c) = s.get c) ∧ ∀ v c, t.get (s.set v c) = t.get c

instance : Std.Symm Independent := ⟨fun _ _ h => h.symm⟩

theorem settings_independent : settings.Pairwise Independent := by
  simp [settings, Independent]

theorem get_set_of_ne {s t : Setting} (hs : s ∈ settings) (ht : t ∈ settings) (h : s ≠ t)
    (v : t.kind.Value) (c : Config) : s.get (t.set v c) = s.get c :=
  (settings_independent.forall hs ht h).1 v c

/-- The values that a setting of a given kind holds. -/
def Kind.Holds : (kind : Kind) → kind.Value → Prop
  | .number bound, n => (n : Nat) < bound
  | _, _ => True

theorem get_set : ∀ s ∈ settings, ∀ {v : s.kind.Value}, s.kind.Holds v →
    ∀ c, s.get (s.set v c) = v := by
  have h32 {n : Nat} (h : n < UInt32.size) : (UInt32.ofNat n).toNat = n :=
    UInt32.toNat_ofNat_of_lt' h
  have h64 {n : Nat} (h : n < UInt64.size) : (UInt64.ofNat n).toNat = n :=
    UInt64.toNat_ofNat_of_lt' h
  simp only [settings, List.forall_mem_cons, List.not_mem_nil, false_implies, implies_true,
    and_true, true_and]
  exact ⟨fun h _ => h32 h, fun h _ => h64 h, fun h _ => h64 h⟩

/-- There is nothing else in a configuration than its settings. -/
theorem eq_of_get_eq {c c' : Config} (h : ∀ s ∈ settings, s.get c = s.get c') : c = c' := by
  simp only [settings, List.forall_mem_cons, List.not_mem_nil, false_implies, implies_true,
    and_true, UInt32.toNat_inj, UInt64.toNat_inj] at h
  cases c
  cases c'
  simpa using h

theorem nodup_names : (settings.map (·.name)).Nodup := by decide

theorem eq_of_name_eq {s t : Setting} (hs : s ∈ settings) (ht : t ∈ settings)
    (h : s.name = t.name) : s = t :=
  List.inj_on_of_nodup_map nodup_names hs ht h

/-! ## Variables -/

/-- The name of the setting that a variable is named after. -/
def target? (key : String) : Option String := (settingOf? key).map (·.name)

theorem mem_of_settingOf? {key : String} {s : Setting} (h : settingOf? key = some s) :
    s ∈ settings := by
  unfold settingOf? at h
  simp only at h
  split at h
  · exact List.mem_of_find?_eq_some h
  · cases h

theorem target?_eq_some_iff {key : String} {s : Setting} (hs : s ∈ settings) :
    target? key = some s.name ↔ settingOf? key = some s := by
  rw [target?, Option.map_eq_some_iff]
  constructor
  · rintro ⟨t, ht, hname⟩
    rwa [← eq_of_name_eq (mem_of_settingOf? ht) hs hname]
  · exact fun h => ⟨s, h, rfl⟩

theorem holds_ofVariable? {value : String} {kind : Kind} {v : kind.Value}
    (h : ofVariable? value kind = some v) : kind.Holds v := by
  cases kind with
  | path => trivial
  | flag => trivial
  | number bound =>
    have hbelow (cs : List Char) {n : Nat} (h : Text.decimalBelow? bound cs = some n) : n < bound :=
      of_decide_eq_true (Option.filter_eq_some_iff.1 h).2
    change Text.unsignedBelow? bound (Text.trim value.toList) = some v at h
    unfold Text.unsignedBelow? at h
    split at h
    · exact hbelow _ h
    · exact hbelow _ h

/-- A variable can be taken: its setting, if it has one, takes its value. -/
def Taken (var : String × String) : Prop :=
  ∀ s, settingOf? var.1 = some s → (ofVariable? var.2 s.kind).isSome = true

/-- What a variable gives a setting. -/
def valueFor? (s : Setting) (var : String × String) : Option s.kind.Value :=
  if target? var.1 = some s.name then ofVariable? var.2 s.kind else none

theorem exists_override_iff {key value : String} {c : Config} :
    (∃ c', override key value c = .ok c') ↔ Taken (key, value) := by
  unfold override Taken
  cases h : settingOf? key with
  | none => simp
  | some s =>
    cases hv : ofVariable? value s.kind with
    | none => simp [hv]
    | some v => simp [hv]

theorem valueFor?_of_named {s : Setting} {key : String} (h : settingOf? key = some s)
    (value : String) : valueFor? s (key, value) = ofVariable? value s.kind :=
  if_pos ((target?_eq_some_iff (mem_of_settingOf? h)).2 h)

theorem valueFor?_of_not_named {s : Setting} (hs : s ∈ settings) {key : String}
    (h : settingOf? key ≠ some s) (value : String) : valueFor? s (key, value) = none :=
  if_neg (mt (target?_eq_some_iff hs).1 h)

theorem target?_of_valueFor? {s : Setting} {var : String × String} {v : s.kind.Value}
    (h : valueFor? s var = some v) : target? var.1 = some s.name := by
  unfold valueFor? at h
  split at h
  · assumption
  · cases h

theorem get_override {key value : String} {c c' : Config} (h : override key value c = .ok c')
    {s : Setting} (hs : s ∈ settings) : s.get c' = (valueFor? s (key, value)).getD (s.get c) := by
  unfold override at h
  split at h
  · next hnone =>
    cases h
    rw [valueFor?_of_not_named hs (by rw [hnone]; nofun)]
    rfl
  · next t ht =>
    split at h
    · next v hv =>
      cases h
      by_cases hst : s = t
      · subst hst
        rw [valueFor?_of_named ht, hv]
        exact get_set s hs (holds_ofVariable? hv) c
      · rw [valueFor?_of_not_named hs (by rw [ht]; exact fun he => hst (Option.some.inj he).symm)]
        exact get_set_of_ne hs (mem_of_settingOf? ht) hst v c
    · cases h

/-- What the last of the variables that are named after a setting gives it. -/
def lastFor? (s : Setting) (vars : List (String × String)) : Option s.kind.Value :=
  (vars.filterMap (valueFor? s)).getLast?

theorem applyOverrides_eq_ok_iff {vars : List (String × String)} {c : Config} :
    (applyOverrides vars c).1 = .ok () ↔ ∀ var ∈ vars, Taken var := by
  induction vars generalizing c with
  | nil => simp [applyOverrides]
  | cons var vars ih =>
    obtain ⟨key, value⟩ := var
    rw [List.forall_mem_cons, ← exists_override_iff (c := c), applyOverrides]
    cases h : override key value c with
    | error e => simp
    | ok c' => simp [ih]

theorem get_applyOverrides {vars : List (String × String)} {c : Config}
    (h : (applyOverrides vars c).1 = .ok ()) {s : Setting} (hs : s ∈ settings) :
    s.get (applyOverrides vars c).2 = (lastFor? s vars).getD (s.get c) := by
  induction vars generalizing c with
  | nil => rfl
  | cons var vars ih =>
    obtain ⟨key, value⟩ := var
    rw [applyOverrides] at h ⊢
    cases hc : override key value c with
    | error e => rw [hc] at h; cases h
    | ok c' =>
      rw [hc] at h
      simp only at h ⊢
      rw [ih h, get_override hc hs, lastFor?, lastFor?, List.filterMap_cons]
      cases valueFor? s (key, value) with
      | none => rfl
      | some v =>
        rw [List.getLast?_cons]
        rfl

/-- Settings come to the same after two runs through variables in different orders if and only if
each gets the same from the last variable that is named after it. -/
theorem applyOverrides_eq_iff {vars vars' : List (String × String)} (h : vars.Perm vars')
    {c : Config} (hok : (applyOverrides vars c).1 = .ok ())
    (hok' : (applyOverrides vars' c).1 = .ok ()) :
    (applyOverrides vars c).2 = (applyOverrides vars' c).2 ↔
      ∀ s ∈ settings, lastFor? s vars = lastFor? s vars' := by
  constructor
  · intro heq s hs
    have hget := get_applyOverrides hok hs
    rw [heq, get_applyOverrides hok' hs] at hget
    have hperm : (vars.filterMap (valueFor? s)).Perm (vars'.filterMap (valueFor? s)) :=
      h.filterMap _
    have hnone : lastFor? s vars = none ↔ lastFor? s vars' = none := by
      rw [lastFor?, lastFor?, List.getLast?_eq_none_iff, List.getLast?_eq_none_iff,
        ← List.perm_nil, ← List.perm_nil, hperm.congr_left]
    cases hv : lastFor? s vars with
    | none => exact (hnone.1 hv).symm
    | some v =>
      cases hv' : lastFor? s vars' with
      | none => rw [hnone.2 hv'] at hv; cases hv
      | some v' =>
        rw [hv, hv'] at hget
        exact congrArg some hget.symm
  · intro hlast
    refine eq_of_get_eq fun s hs => ?_
    rw [get_applyOverrides hok hs, get_applyOverrides hok' hs, hlast s hs]

/-- Where no two variables are named after one setting, each gets the same in every order. -/
theorem lastFor?_perm {vars vars' : List (String × String)} (h : vars.Perm vars')
    (hdistinct : (vars.filterMap (target? ·.1)).Nodup) (s : Setting) :
    lastFor? s vars = lastFor? s vars' := by
  have hperm : (vars.filterMap (valueFor? s)).Perm (vars'.filterMap (valueFor? s)) :=
    h.filterMap _
  have hone : (vars.filterMap (valueFor? s)).Pairwise fun _ _ => False := by
    rw [List.pairwise_filterMap]
    exact (List.pairwise_filterMap.1 hdistinct).imp fun hne v hv v' hv' =>
      hne _ (target?_of_valueFor? hv) _ (target?_of_valueFor? hv') rfl
  rw [lastFor?, lastFor?]
  match hvalues : vars.filterMap (valueFor? s) with
  | [] => rw [hvalues] at hperm; rw [hperm.nil_eq]
  | [v] => rw [hvalues] at hperm; rw [hperm.singleton_eq]
  | v :: v' :: rest =>
    rw [hvalues] at hone
    exact ((List.pairwise_cons.1 hone).1 v' (.head _)).elim

/-- **The order of the variables counts only among those of one setting.** Variables can be taken in
one order if and only if they can in every other. The settings then come to the same if and only if
each gets the same from the last variable that is named after it, as it does in any order where no
two variables are named after one setting. -/
theorem applyOverrides_perm {vars vars' : List (String × String)} (h : vars.Perm vars')
    (c : Config) :
    ((applyOverrides vars c).1 = .ok () ↔ (applyOverrides vars' c).1 = .ok ()) ∧
    ((applyOverrides vars c).1 = .ok () →
      ((applyOverrides vars c).2 = (applyOverrides vars' c).2 ↔
        ∀ s ∈ settings, lastFor? s vars = lastFor? s vars') ∧
      ((vars.filterMap (target? ·.1)).Nodup →
        (applyOverrides vars c).2 = (applyOverrides vars' c).2)) := by
  have hok : (applyOverrides vars c).1 = .ok () ↔ (applyOverrides vars' c).1 = .ok () := by
    rw [applyOverrides_eq_ok_iff, applyOverrides_eq_ok_iff]
    exact forall_congr' fun var => by rw [h.mem_iff]
  refine ⟨hok, fun hvars => ?_⟩
  have hiff := applyOverrides_eq_iff h hvars (hok.1 hvars)
  exact ⟨hiff, fun hdistinct => hiff.2 fun s _ => lastFor?_perm h hdistinct s⟩

theorem applyOverrides_perm_distinct :
    let vars := [("N64_REPLAY_SILENT", "1"), ("HOME", "/root"), ("N64_REPLAY_saves_dir", "st")]
    vars.Perm vars.reverse ∧ (vars.filterMap (target? ·.1)).Nodup ∧
      (applyOverrides vars.reverse {}).1 = .ok () ∧
      (applyOverrides vars {}).2 = (applyOverrides vars.reverse {}).2 := by
  intro vars
  have hperm : vars.Perm vars.reverse := (List.reverse_perm vars).symm
  have hdistinct : (vars.filterMap (target? ·.1)).Nodup := by decide
  have hok : (applyOverrides vars {}).1 = .ok () := by decide
  obtain ⟨hiff, hsame⟩ := applyOverrides_perm hperm {}
  exact ⟨hperm, hdistinct, hiff.1 hok, (hsame hok).2 hdistinct⟩

/-- Two variables of different names are named after one setting, and the last one counts. -/
theorem applyOverrides_order_matters :
    let vars := [("N64_REPLAY_SILENT", "1"), ("N64_REPLAY_silent", "0")]
    (vars.map (·.1)).Nodup ∧ vars.Perm vars.reverse ∧
      (applyOverrides vars {}).1 = .ok () ∧ (applyOverrides vars.reverse {}).1 = .ok () ∧
      (applyOverrides vars {}).2 ≠ (applyOverrides vars.reverse {}).2 := by
  decide

end Rewind.Config
