import Mathlib.Data.List.TakeWhile
import Rewind.Storage.Pathname

/-!
The last name of a path. A path is what leads up to its last name, and that name; an extension
concerns the name alone. Main statement: a path whose extension is replaced by another one ends in
another name (`Ends.withExtension`).
-/

namespace Rewind.Storage.Pathname

/-! ## Pieces -/

theorem split_ne_nil (cs : List Char) : split cs ≠ [] := by
  cases cs with
  | nil => nofun
  | cons c cs =>
    unfold split
    split
    · nofun
    · split <;> nofun

theorem split_of_notMem {cs : List Char} (h : '/' ∉ cs) : split cs = [cs] := by
  induction cs with
  | nil => rfl
  | cons c cs ih =>
    have hc : c ≠ '/' := fun hc => h (hc ▸ .head cs)
    have hcs : '/' ∉ cs := fun hcs => h (.tail c hcs)
    rw [split, if_neg hc, ih hcs]

theorem split_append_slash (front : List Char) {name : List Char} (h : '/' ∉ name) :
    split (front ++ '/' :: name) = split front ++ [name] := by
  induction front with
  | nil =>
    have hsplit : split ('/' :: name) = [] :: split name := if_pos rfl
    rw [List.nil_append, hsplit, split_of_notMem h]
    rfl
  | cons c front ih =>
    rw [List.cons_append, split, split, ih]
    split
    · rfl
    · cases hs : split front with
      | nil => exact absurd hs (split_ne_nil front)
      | cons piece pieces => rfl

/-- A path is written as what leads up to a name, and the name. -/
structure Ends (p : Pathname) (lead name : List Char) : Prop where
  text : p.text.toList = lead ++ name
  notMem : '/' ∉ name
  lead : lead = [] ∨ ∃ front, lead = front ++ ['/']

theorem exists_ends (p : Pathname) : ∃ lead name, p.Ends lead name := by
  by_cases h : '/' ∈ p.text.toList
  · obtain ⟨back, front, hs, hn⟩ := List.eq_append_cons_of_mem (List.mem_reverse.2 h)
    refine ⟨front.reverse ++ ['/'], back.reverse, ?_, fun hm => hn (List.mem_reverse.1 hm),
      .inr ⟨_, rfl⟩⟩
    rw [← List.reverse_reverse p.text.toList, hs]
    simp
  · exact ⟨[], p.text.toList, rfl, h, .inl rfl⟩

variable {p : Pathname} {lead name : List Char}

theorem Ends.pieces (h : p.Ends lead name) :
    p.pieces = (split lead).dropLast.map String.ofList ++ [String.ofList name] := by
  have hsplit : split p.text.toList = (split lead).dropLast ++ [name] := by
    rw [h.text]
    obtain rfl | ⟨front, rfl⟩ := h.lead
    · exact split_of_notMem h.notMem
    · have hnil : '/' ∉ ([] : List Char) := List.not_mem_nil
      rw [List.append_assoc, List.singleton_append, split_append_slash front h.notMem,
        split_append_slash front hnil, List.dropLast_concat]
  rw [Pathname.pieces, hsplit, List.map_append]
  rfl

/-- A name that is neither empty nor made of one or two dots is the name of a file. -/
def IsRegular (name : List Char) : Prop := name ≠ [] ∧ name ≠ ['.'] ∧ name ≠ ['.', '.']

theorem IsRegular.ofPiece? (h : IsRegular name) :
    Component.ofPiece? (String.ofList name) = some (.name (String.ofList name)) := by
  unfold Component.ofPiece?
  split
  · next he => exact absurd (String.ofList_injective he : name = []) h.1
  · next he => exact absurd (String.ofList_injective he : name = ['.']) h.2.1
  · next he => exact absurd (String.ofList_injective he : name = ['.', '.']) h.2.2
  · rfl

theorem Ends.fileName? (h : p.Ends lead name) (hr : IsRegular name) :
    p.fileName? = some (String.ofList name) := by
  have hlast : p.components.getLast? = some (.name (String.ofList name)) := by
    rw [components, h.pieces, List.filterMap_append]
    simp only [List.filterMap_cons, List.filterMap_nil, hr.ofPiece?]
    rw [← List.append_assoc, List.getLast?_concat]
  rw [Pathname.fileName?, hlast]

theorem Ends.fileName?_up (h : p.Ends lead ['.', '.']) : p.fileName? = none := by
  have hup : Component.ofPiece? (String.ofList ['.', '.']) = some .up := rfl
  have hlast : p.components.getLast? = some .up := by
    rw [components, h.pieces, List.filterMap_append]
    simp only [List.filterMap_cons, List.filterMap_nil, hup]
    rw [← List.append_assoc, List.getLast?_concat]
  rw [Pathname.fileName?, hlast]

theorem Ends.extension? (h : p.Ends lead name) (hr : IsRegular name) :
    p.extension? = extensionOf? name := by
  rw [Pathname.extension?, h.fileName? hr, Option.bind_some, String.toList_ofList]

/-! ## Extensions -/

/-- What follows the last dot is the extension, if something stands in front of the dot. -/
theorem extensionOf?_append {front ext : List Char} (h : '.' ∉ ext) (hf : front ≠ []) :
    extensionOf? (front ++ '.' :: ext) = some ext := by
  have hall : ∀ c ∈ ext.reverse, (c != '.') = true :=
    fun c hc => bne_iff_ne.2 fun he => h (he ▸ List.mem_reverse.1 hc)
  have htake : ((front ++ '.' :: ext).reverse.takeWhile (· != '.')).reverse = ext := by
    rw [List.reverse_append, List.reverse_cons, List.append_assoc,
      List.takeWhile_append_of_pos hall, List.singleton_append,
      List.takeWhile_cons_of_neg (by decide), List.append_nil, List.reverse_reverse]
  have hlength : ¬(front ++ '.' :: ext).length ≤ ext.length + 1 := by
    have hpos := List.length_pos_iff.2 hf
    rw [List.length_append, List.length_cons]
    omega
  unfold extensionOf?
  simp only [htake]
  exact if_neg hlength

theorem length_of_extensionOf? {ext : List Char} (h : extensionOf? name = some ext) :
    ext.length + 1 < name.length := by
  unfold extensionOf? at h
  simp only at h
  split at h
  · cases h
  · next hlt =>
    cases h
    omega

/-- Nothing follows a last name that is regular. -/
theorem Ends.dropTrailing (h : p.Ends lead name) (hr : IsRegular name) :
    dropTrailing p.text.toList.reverse = p.text.toList.reverse := by
  rw [h.text, List.reverse_append]
  cases hn : name.reverse with
  | nil => exact absurd (List.reverse_eq_nil_iff.1 hn) hr.1
  | cons c cs =>
    have hname : name = cs.reverse ++ [c] := by
      rw [← List.reverse_reverse name, hn, List.reverse_cons]
    have hslash : '/' ∉ c :: cs := fun hm => h.notMem (List.mem_reverse.1 (hn ▸ hm))
    rw [List.cons_append]
    unfold Pathname.dropTrailing
    split
    · next heq =>
      cases heq
      exact absurd (.head cs) hslash
    · next heq =>
      -- A dot behind a slash would be the whole name.
      obtain ⟨rfl, htail⟩ := List.cons.inj heq
      cases cs with
      | nil => exact absurd hname hr.2.1
      | cons c cs =>
        cases htail
        exact absurd (.tail _ (.head cs)) hslash
    · rfl

variable {ext : String}

/-- A name that is cut, and not all of it cut off, goes on with the extension. -/
theorem Ends.cutTo (h : p.Ends lead name) (hslash : '/' ∉ ext.toList) {old : Nat}
    (hlt : old < name.length) {q : Pathname}
    (hq : q = ⟨String.ofList ((lead ++ name).take ((lead ++ name).length - old)) ++ "." ++ ext⟩) :
    ∃ stem, stem ≠ [] ∧ q.Ends lead (stem ++ '.' :: ext.toList) := by
  have htake : (lead ++ name).take ((lead ++ name).length - old) =
      lead ++ name.take (name.length - old) := by
    have hle : lead.length ≤ (lead ++ name).length - old := by
      rw [List.length_append]
      omega
    rw [List.take_append, List.take_of_length_le hle, List.length_append]
    congr 2
    omega
  refine ⟨name.take (name.length - old), ?_, ?_, ?_, h.lead⟩
  · intro hnil
    have hl := congrArg List.length hnil
    rw [List.length_take, List.length_nil] at hl
    omega
  · rw [hq, htake]
    simp [String.toList_append]
  · intro hm
    obtain hm | hm := List.mem_append.1 hm
    · exact h.notMem (List.mem_of_mem_take hm)
    · obtain hm | hm := List.mem_cons.1 hm
      · exact absurd hm (by decide)
      · exact hslash hm

theorem Ends.setExtension (h : p.Ends lead name) (hr : IsRegular name)
    (hslash : '/' ∉ ext.toList) :
    ∃ stem, stem ≠ [] ∧ (p.setExtension ext).Ends lead (stem ++ '.' :: ext.toList) := by
  have hbase : (Pathname.dropTrailing p.text.toList.reverse).reverse = lead ++ name := by
    rw [h.dropTrailing hr, List.reverse_reverse, h.text]
  cases hx : extensionOf? name with
  | none =>
    refine h.cutTo hslash (List.length_pos_iff.2 hr.1) ?_
    rw [Pathname.setExtension, h.fileName? hr]
    simp only [String.toList_ofList, hbase, hx]
  | some old =>
    refine h.cutTo hslash (length_of_extensionOf? hx) ?_
    rw [Pathname.setExtension, h.fileName? hr]
    simp only [String.toList_ofList, hbase, hx]

/-- **Another extension makes another name**, where a path ends in the name of a file. -/
theorem Ends.withExtension (h : p.Ends lead name) (hr : IsRegular name)
    (hslash : '/' ∉ ext.toList) (hdot : '.' ∉ ext.toList)
    (hext : p.extension? ≠ some ext.toList) :
    ∃ name', (p.withExtension ext).Ends lead name' ∧ name' ≠ name := by
  rw [h.extension? hr] at hext
  have hset {q : Pathname} {name' : List Char} (hq : q.Ends lead name') (hr' : IsRegular name') :
      ∃ name', (q.setExtension ext).Ends lead name' ∧ name' ≠ name := by
    obtain ⟨stem, hstem, hends⟩ := hq.setExtension hr' hslash
    refine ⟨_, hends, ?_⟩
    rintro rfl
    exact hext (extensionOf?_append hdot hstem)
  rw [Pathname.withExtension, h.extension? hr]
  cases hx : extensionOf? name with
  | none =>
    have hp : (⟨String.ofList (p.text.toList.take (p.text.toList.length - 0))⟩ : Pathname) = p := by
      rw [Nat.sub_zero, List.take_length, String.ofList_toList]
    exact hset (hp.symm ▸ h) hr
  | some old =>
    have hlt := length_of_extensionOf? hx
    have hle : lead.length ≤ (lead ++ name).length - old.length := by
      rw [List.length_append]
      omega
    have hrest : (lead ++ name).length - old.length - lead.length = name.length - old.length := by
      rw [List.length_append]
      omega
    rw [Option.getD_some, h.text, List.take_append, List.take_of_length_le hle, hrest]
    have hlength := List.length_take_of_le (Nat.sub_le name.length old.length)
    have hq : (⟨String.ofList (lead ++ name.take (name.length - old.length))⟩ : Pathname).Ends lead
        (name.take (name.length - old.length)) :=
      ⟨String.toList_ofList, fun hm => h.notMem (List.mem_of_mem_take hm), h.lead⟩
    generalize name.take (name.length - old.length) = cut at hlength hq ⊢
    by_cases hup : cut = ['.', '.']
    · -- The cut leaves no file name, and the path stays as it is.
      subst hup
      refine ⟨_, ?_, hr.2.2.symm⟩
      rw [Pathname.setExtension, hq.fileName?_up]
      exact hq
    · refine hset hq ⟨?_, ?_, hup⟩
      · rintro rfl
        rw [List.length_nil] at hlength
        omega
      · rintro rfl
        rw [List.length_singleton] at hlength
        omega

end Rewind.Storage.Pathname
