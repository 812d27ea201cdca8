import Rewind.Proofs.Text.Decimal
import Rewind.Seek

/-!
What a text can name. The sample that a target stands for lies inside the movie
(`Target.resolve_le`), and it is the one that whole numbers without bounds give: `Target.Names` is
the grammar of the texts and `Form.place` the arithmetic, and `Target.parse_resolve_iff` says that
reading and resolving a text comes to the two of them.
-/

namespace Rewind.Seek.Target

theorem parse_eq_error {text : String} {e : Error} (h : parse text = .error e) :
    ∃ shown, e = .parse shown := by
  unfold parse at h
  simp only at h
  split at h
  · cases h
  · cases h
    exact ⟨_, rfl⟩

variable {target : Target} {current length : Nat}

theorem resolve_eq_error {e : Error} (h : target.resolve current length = .error e) :
    ∃ position, e = .outOfRange position length := by
  unfold resolve at h
  split at h
  · cases h
    exact ⟨_, rfl⟩
  · simp only at h
    split at h
    · cases h
    · cases h
      exact ⟨_, rfl⟩

/-- Only a sample inside the movie can be named. -/
theorem resolve_le {sample : Nat} (h : target.resolve current length = .ok sample) :
    sample ≤ length := by
  unfold resolve at h
  split at h
  · cases h
  · simp only at h
    split at h
    · next hinside =>
      cases h
      have hsigned : signed length ≤ length := by
        unfold signed Int.bmod
        simp only [UInt64.size]
        omega
      have := hinside.2
      omega
    · cases h

/-! ### The grammar -/

/-- The ways to name a sample. -/
inductive Form
  | absolute
  | forward
  | backward
  | fromEnd

namespace Form

/-- What stands in front of the number. -/
def mark : Form → List Char
  | absolute => []
  | forward => ['+']
  | backward => ['-']
  | fromEnd => ['^']

/-- The target named by a number. -/
def toTarget : Form → UInt64 → Target
  | absolute => .absolute
  | forward => .forward
  | backward => .backward
  | fromEnd => .fromEnd

/-- Where the number `n` leads from the sample `current` of a movie with `length` samples. -/
def place (form : Form) (n current length : Nat) : Int :=
  match form with
  | absolute => n
  | forward => current + n
  | backward => current - n
  | fromEnd => length - n

end Form

/-- The text is a mark and the digits of `n`, with white space around them or none. -/
def Names (text : String) (form : Form) (n : Nat) : Prop :=
  ∃ front digits back, text.toList = front ++ (form.mark ++ digits ++ back) ∧
    Text.Blank front ∧ Text.Blank back ∧
    digits ≠ [] ∧ (∀ c ∈ digits, c.isDigit) ∧ Text.decimalValue digits = n

theorem exists_form_of_splitSign (cs : List Char) :
    ∃ form digits, cs = Form.mark form ++ digits ∧ splitSign cs = (form.toTarget, digits) := by
  unfold splitSign
  split
  · exact ⟨.forward, _, rfl, rfl⟩
  · exact ⟨.backward, _, rfl, rfl⟩
  · exact ⟨.fromEnd, _, rfl, rfl⟩
  · exact ⟨.absolute, _, rfl, rfl⟩

variable {form : Form} {digits : List Char}

/-- Without a mark there is a digit in front, which no mark is. -/
theorem splitSign_mark_append (hdigits : ∀ c ∈ digits, c.isDigit) :
    splitSign (form.mark ++ digits) = (form.toTarget, digits) := by
  cases form with
  | forward => rfl
  | backward => rfl
  | fromEnd => rfl
  | absolute =>
    change splitSign digits = (absolute, digits)
    unfold splitSign
    split
    · exact absurd (hdigits '+' (by simp)) (by decide)
    · exact absurd (hdigits '-' (by simp)) (by decide)
    · exact absurd (hdigits '^' (by simp)) (by decide)
    · rfl

theorem not_isBlank_of_mem_mark {c : Char} (hc : c ∈ form.mark) : ¬Text.isBlank c := by
  cases form with
  | absolute => cases hc
  | forward | backward | fromEnd =>
    obtain rfl := List.mem_singleton.mp hc
    decide

/-- Nothing of a mark and its digits is lost when the white space around them is. -/
theorem trim_around_mark {front back : List Char} (hfront : Text.Blank front)
    (hback : Text.Blank back) (hdigits : ∀ c ∈ digits, c.isDigit) :
    Text.trim (front ++ (form.mark ++ digits ++ back)) = form.mark ++ digits := by
  have hcore : ∀ c ∈ form.mark ++ digits, ¬Text.isBlank c := by
    intro c hc
    rcases List.mem_append.mp hc with hmark | hdigit
    · exact not_isBlank_of_mem_mark hmark
    · exact Text.not_isBlank_of_isDigit (hdigits c hdigit)
  refine Text.trim_around hfront hback ?_ ?_
  · exact fun c hc => hcore c (List.mem_of_mem_head? hc)
  · exact fun c hc => hcore c (List.mem_of_mem_getLast? hc)

variable {text : String} {n : Nat}

theorem parse_of_names (h : Names text form n) (hn : n < UInt64.size) :
    parse text = .ok (form.toTarget (UInt64.ofNat n)) := by
  obtain ⟨front, digits, back, htext, hfront, hback, hne, hdigits, hvalue⟩ := h
  have hnumber : Text.decimalBelow? UInt64.size digits = some n :=
    Text.decimalBelow?_eq_some_iff.mpr ⟨hne, hdigits, hvalue, hn⟩
  rw [parse, htext, trim_around_mark hfront hback hdigits]
  simp only [splitSign_mark_append hdigits, hnumber]

/-- A text that names no number below the bound is refused, and shown without its white space. -/
theorem parse_of_not_names (h : ¬∃ form n, Names text form n ∧ n < UInt64.size) :
    parse text = .error (.parse (String.ofList (Text.trim text.toList))) := by
  obtain ⟨form, digits, hmark, hsplit⟩ := exists_form_of_splitSign (Text.trim text.toList)
  obtain ⟨front, back, htext, hfront, hback⟩ := Text.exists_around_trim text.toList
  unfold parse
  simp only [hsplit]
  cases hnumber : Text.decimalBelow? UInt64.size digits with
  | none => rfl
  | some n =>
    obtain ⟨hne, hdigits, hvalue, hn⟩ := Text.decimalBelow?_eq_some_iff.mp hnumber
    rw [hmark] at htext
    exact absurd ⟨form, n, ⟨front, digits, back, htext, hfront, hback, hne, hdigits, hvalue⟩, hn⟩ h

/-! ### The arithmetic -/

theorem signed_of_lt (h : n < 2 ^ 63) : signed n = n := by
  unfold signed Int.bmod
  simp only [UInt64.size]
  omega

theorem clamp_of_nonneg_of_lt {place : Int} (h0 : 0 ≤ place) (h : place < maxInt) :
    clamp place = place := by
  unfold clamp minInt
  omega

/-- Stopping at the nearest signed number brings nothing into a movie that ends below the last. -/
theorem clamp_inside_iff {place : Int} (hlength : length < maxInt) :
    0 ≤ clamp place ∧ clamp place ≤ length ↔ 0 ≤ place ∧ place ≤ length := by
  unfold clamp minInt
  omega

theorem count_toTarget (form : Form) (n : UInt64) : (form.toTarget n).count = n := by
  cases form <;> rfl

variable (hcurrent : current < 2 ^ 63 - 1) (hlength : length < 2 ^ 63 - 1)

include hcurrent hlength in
/-- A number that is no signed one leads past the movie in its own direction. -/
theorem place_outside_of_maxInt_lt (hn : maxInt < n) :
    ¬(0 ≤ form.place n current length ∧ form.place n current length ≤ length) := by
  unfold maxInt at hn
  cases form <;> simp only [Form.place] <;> omega

include hcurrent hlength in
theorem position_toTarget (hn : n ≤ maxInt) :
    (form.toTarget (UInt64.ofNat n)).position (signed current) (signed length) =
      clamp (form.place n current length) := by
  have hnat : (UInt64.ofNat n).toNat = n :=
    UInt64.toNat_ofNat_of_lt' (by unfold maxInt at hn; unfold UInt64.size; omega)
  rw [signed_of_lt (by omega), signed_of_lt (by omega)]
  cases form with
  | forward | backward | fromEnd => simp only [Form.toTarget, Form.place, position, hnat]
  | absolute =>
    simp only [Form.toTarget, Form.place, position, hnat]
    unfold clamp minInt
    omega

include hcurrent hlength in
/-- What the bounded numbers of the machine make of a target is what unbounded ones would. -/
theorem resolve_toTarget (form : Form) (hn : n < UInt64.size) :
    (∃ sample : Nat, form.place n current length = sample ∧ sample ≤ length ∧
      (form.toTarget (UInt64.ofNat n)).resolve current length = .ok sample) ∨
    ¬(0 ≤ form.place n current length ∧ form.place n current length ≤ length) ∧
      ∃ shown, (form.toTarget (UInt64.ofNat n)).resolve current length =
        .error (.outOfRange shown length) := by
  unfold resolve
  rw [count_toTarget, UInt64.toNat_ofNat_of_lt' hn]
  by_cases hlarge : maxInt < n
  · rw [if_pos hlarge]
    exact .inr ⟨place_outside_of_maxInt_lt hcurrent hlength hlarge, _, rfl⟩
  · have hlast : (length : Int) < maxInt := by
      unfold maxInt
      omega
    simp only [if_neg hlarge, position_toTarget hcurrent hlength (Int.not_lt.mp hlarge)]
    rw [signed_of_lt (by omega)]
    simp only [clamp_inside_iff hlast]
    split
    · next hinside =>
      rw [clamp_of_nonneg_of_lt hinside.1 (hinside.2.trans_lt hlast)]
      refine .inl ⟨_, (Int.toNat_of_nonneg hinside.1).symm, ?_, rfl⟩
      omega
    · next houtside => exact .inr ⟨houtside, _, rfl⟩

include hcurrent hlength in
theorem resolve_toTarget_eq_ok_iff (hn : n < UInt64.size) {sample : Nat} :
    (form.toTarget (UInt64.ofNat n)).resolve current length = .ok sample ↔
      form.place n current length = sample ∧ sample ≤ length := by
  obtain ⟨named, hplace, hle, hresolve⟩ | ⟨houtside, shown, hresolve⟩ :=
    resolve_toTarget hcurrent hlength form hn
  · rw [hresolve, hplace, Except.ok.injEq]
    omega
  · rw [hresolve]
    constructor
    · rintro ⟨⟩
    · rintro ⟨hplace, hle⟩
      exact absurd ⟨by omega, by omega⟩ houtside

include hcurrent hlength in
theorem resolve_toTarget_outOfRange_iff (hn : n < UInt64.size) :
    (∃ shown, (form.toTarget (UInt64.ofNat n)).resolve current length =
        .error (.outOfRange shown length)) ↔
      ¬(0 ≤ form.place n current length ∧ form.place n current length ≤ length) := by
  obtain ⟨named, hplace, hle, hresolve⟩ | ⟨houtside, hresolve⟩ :=
    resolve_toTarget hcurrent hlength form hn
  · rw [hresolve, hplace]
    constructor
    · rintro ⟨_, ⟨⟩⟩
    · intro houtside
      exact absurd ⟨by omega, by omega⟩ houtside
  · exact iff_of_true hresolve houtside

theorem parse_resolve_of_names (h : Names text form n) (hn : n < UInt64.size) :
    (do (← parse text).resolve current length) =
      (form.toTarget (UInt64.ofNat n)).resolve current length := by
  rw [parse_of_names h hn]
  rfl

theorem parse_resolve_of_not_names (h : ¬∃ form n, Names text form n ∧ n < UInt64.size) :
    (do (← parse text).resolve current length) =
      .error (.parse (String.ofList (Text.trim text.toList))) := by
  rw [parse_of_not_names h]
  rfl

/-- What is said of the outcome, and not of a text that is refused, is said of what it names. -/
theorem parse_resolve_iff_exists {P : Except Error Nat → Prop}
    (hP : ∀ shown, ¬P (.error (.parse shown))) :
    P (do (← parse text).resolve current length) ↔
      ∃ form n, Names text form n ∧ n < UInt64.size ∧
        P ((form.toTarget (UInt64.ofNat n)).resolve current length) := by
  constructor
  · intro h
    by_cases hnames : ∃ form n, Names text form n ∧ n < UInt64.size
    · obtain ⟨form, n, hform, hn⟩ := hnames
      rw [parse_resolve_of_names hform hn] at h
      exact ⟨form, n, hform, hn, h⟩
    · rw [parse_resolve_of_not_names hnames] at h
      exact absurd h (hP _)
  · rintro ⟨form, n, hform, hn, h⟩
    rwa [parse_resolve_of_names hform hn]

/--
Reading and resolving a text comes to whole numbers without bounds. Only a text of the grammar with
a number of 64 bits is read, its sample is the place that it leads to, and a place outside the
movie is refused as such, however near it lies to the bounds of the machine's numbers.
-/
theorem parse_resolve_iff (text : String) (hcurrent : current < 2 ^ 63 - 1)
    (hlength : length < 2 ^ 63 - 1) :
    (∀ sample : Nat, (do (← parse text).resolve current length) = .ok sample ↔
      ∃ form n, Names text form n ∧ n < 2 ^ 64 ∧
        form.place n current length = sample ∧ sample ≤ length) ∧
    ((do (← parse text).resolve current length) =
        .error (.parse (String.ofList (Text.trim text.toList))) ↔
      ¬∃ form n, Names text form n ∧ n < 2 ^ 64) ∧
    ((∃ shown, (do (← parse text).resolve current length) = .error (.outOfRange shown length)) ↔
      ∃ form n, Names text form n ∧ n < 2 ^ 64 ∧
        ¬(0 ≤ form.place n current length ∧ form.place n current length ≤ length)) := by
  refine ⟨fun sample => ?accepted, ⟨fun hrefused => ?_, parse_resolve_of_not_names⟩, ?outside⟩
  case accepted =>
    rw [parse_resolve_iff_exists (P := (· = .ok sample)) (fun _ => nofun)]
    refine exists_congr fun form => exists_congr fun n => and_congr_right fun _ => ?_
    exact and_congr_right fun hn => resolve_toTarget_eq_ok_iff hcurrent hlength hn
  case outside =>
    rw [parse_resolve_iff_exists (P := fun r => ∃ shown, r = .error (.outOfRange shown length))
      (fun _ => nofun)]
    refine exists_congr fun form => exists_congr fun n => and_congr_right fun _ => ?_
    exact and_congr_right fun hn => resolve_toTarget_outOfRange_iff hcurrent hlength hn
  · rintro ⟨form, n, hform, hn⟩
    rw [parse_resolve_of_names hform hn] at hrefused
    obtain ⟨_, hposition⟩ := resolve_eq_error hrefused
    cases hposition

/-- A sum that no signed number holds stays outside the longest movie. -/
theorem parse_resolve_past_signed :
    ∃ shown, (do (← parse "\u3000+9223372036854775807 ").resolve (2 ^ 63 - 2) (2 ^ 63 - 2)) =
      .error (.outOfRange shown (2 ^ 63 - 2)) := by
  refine (parse_resolve_iff _ (by decide) (by decide)).2.2.mpr
    ⟨.forward, 2 ^ 63 - 1, ⟨['\u3000'], "9223372036854775807".toList, [' '], ?_⟩,
      by decide, by decide⟩
  have hdigits : "9223372036854775807".toList.all Char.isDigit = true := rfl
  exact ⟨rfl, List.forall_mem_singleton.mpr rfl, List.forall_mem_singleton.mpr rfl, nofun,
    List.all_eq_true.mp hdigits, rfl⟩

end Rewind.Seek.Target
