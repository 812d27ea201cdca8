import Rewind.Proofs.Movie.FileRoundTrip

/-!
What a change of the author does to a movie's file. The header is read and written anew as a whole,
so what stands in front of the author stays as it is where reading keeps it, and only there: areas
that are not in use become zero, and texts are written again as they were understood. Main
statement: a change of the author leaves the rest of a file alone if and only if its header is tidy
(`writeAuthor_unchanged_iff`).
-/

namespace Rewind

open Wire

namespace Movie

/-! ## Texts that are written again -/

/-- A text without zero characters, and zeros behind it up to the end of the field. -/
def HoldsText (width : Nat) (field : ByteArray) : Prop :=
  ∃ text : String, text.utf8ByteSize < width ∧ '\x00' ∉ text.toList ∧
    field = Bytes.fit width text.toUTF8

theorem bytes_textField (width : Nat) (text : String) : (textField width).bytes text =
    Bytes.fit width (String.ofList (Text.cutTo (width - 1) text.toList)).toUTF8 :=
  ByteArray.empty_append

theorem bytes_textField_of_fits {width : Nat} {text : String} (h : text.utf8ByteSize < width) :
    (textField width).bytes text = Bytes.fit width text.toUTF8 := by
  have hlength : (Text.utf8 text.toList).length = text.utf8ByteSize := by
    rw [Text.length_utf8, String.ofList_toList]
  rw [bytes_textField, Text.cutTo_of_length_le (by omega), String.ofList_toList]

/-- A field that was written holds a text, if nothing in the text ends it. -/
theorem holdsText_bytes {width : Nat} {text : String} (hw : 0 < width)
    (h : '\x00' ∉ text.toList) : HoldsText width ((textField width).bytes text) := by
  obtain ⟨hfront, hlength⟩ := Text.isPrefix_cutTo_iff.1
    (List.prefix_refl (Text.cutTo (width - 1) text.toList))
  rw [Text.length_utf8] at hlength
  refine ⟨String.ofList (Text.cutTo (width - 1) text.toList), by omega, ?_, bytes_textField _ _⟩
  rw [String.toList_ofList]
  exact fun hmem => h (hfront.subset hmem)

/-- A field is written as it stood if and only if it holds a text. -/
theorem bytes_get_textField_iff {width : Nat} (hw : 0 < width) (data : ByteArray) (offset : Nat) :
    (textField width).bytes ((textField width).get data offset) =
        data.extract offset (offset + width) ↔
      HoldsText width (data.extract offset (offset + width)) := by
  constructor
  · intro hsame
    rw [← hsame]
    exact holdsText_bytes hw (zero_notMem_get width data offset)
  · rintro ⟨text, hlt, hzero, hfield⟩
    have hbytes := bytes_textField_of_fits hlt
    rw [← hbytes] at hfield
    have hread : (textField width).get data offset = clip width text := by
      have hget := (textField_readsAs hw text).get_bytes ByteArray.empty ByteArray.empty
      rw [ByteArray.append_empty, ByteArray.empty_append, ← hfield] at hget
      rw [← hget]
      simp [textField, List.take_take]
    rw [hread, clip_of_fits hlt hzero, hfield]

namespace Header

/-! ## Where everything stands -/

theorem upperHalf_set (v : UInt32) (h : Header) : upperHalf.set v h =
    { h with
      rerecordCount := h.rerecordCount +
        if h.extendedVersion = 0 then 0 else v.toUInt64 * 0x100000000 } := by
  simp only [upperHalf]
  split
  · rw [UInt64.add_zero]
  · rfl

/-- The map of a header. -/
theorem layout_get (data : ByteArray) : layout.get data 0 =
    { version := Layout.u32.get data 4
      uid := Layout.u32.get data 8
      lengthVis := Layout.u32.get data 12
      rerecordCount := (Layout.u32.get data 16).toUInt64 +
        if Layout.u8.get data 22 = 0 then 0
        else (Layout.u32.get data 44).toUInt64 * 0x100000000
      visPerSecond := Layout.u8.get data 20
      numControllers := Layout.u8.get data 21
      extendedVersion := Layout.u8.get data 22
      extendedFlags := Layout.u8.get data 23
      lengthSamples := Layout.u32.get data 24
      startFlags := Layout.u16.get data 28
      controllerFlags := Layout.u32.get data 32
      authorshipTag := (Layout.block 4).get data 36
      bruteforceExtraData := Layout.u32.get data 40
      oldAuthor := (textField 48).get data 68
      oldDescription := (textField 80).get data 116
      romName := (textField 32).get data 196
      romCrc1 := Layout.u32.get data 228
      romCountry := Layout.u16.get data 232
      plugins :=
        { video := (textField 64).get data 290
          audio := (textField 64).get data 354
          input := (textField 64).get data 418
          rsp := (textField 64).get data 482 }
      author := (textField 222).get data 546
      description := (textField 256).get data 768 } := by
  rw [get_eq, upperHalf_set]
  rfl

/-- The areas in front of the author that are not in use, by offset and size. -/
def gaps : List (Nat × Nat) := [(30, 2), (48, 20), (234, 56)]

/-- The fields for text in front of the author, by offset and width. -/
def textFields : List (Nat × Nat) :=
  [(68, 48), (116, 80), (196, 32), (290, 64), (354, 64), (418, 64), (482, 64)]

/-- The bytes that need not be written as they were read: unused areas, texts, and the upper half of
the rerecord count where the extended block is not in use. -/
def Loose (data : ByteArray) (i : Nat) : Prop :=
  (∃ a ∈ gaps ++ textFields, a.1 ≤ i ∧ i < a.1 + a.2) ∨
    Layout.u8.get data 22 = 0 ∧ 44 ≤ i ∧ i < 48

/-- A header in which nothing stands but what is read from it. -/
structure Tidy (data : ByteArray) : Prop where
  gaps : ∀ a ∈ gaps, data.extract a.1 (a.1 + a.2) = Bytes.zeros a.2
  texts : ∀ a ∈ textFields, HoldsText a.2 (data.extract a.1 (a.1 + a.2))
  upperHalf : Layout.u8.get data 22 = 0 → data.extract 44 48 = Bytes.zeros 4

/-- What becomes of a movie's file when its author and description are changed. -/
structure Edited (author description : String) (data data' : ByteArray) : Prop where
  size_eq : data'.size = data.size
  behind : ∀ i, size ≤ i → Bytes.peek data' i = Bytes.peek data i
  author : data'.extract 0x222 0x300 = (textField 222).bytes author
  description : data'.extract 0x300 0x400 = (textField 256).bytes description
  kept : ∀ i < 0x222, ¬Loose data i → Bytes.peek data' i = Bytes.peek data i
  gaps : ∀ a ∈ gaps, data'.extract a.1 (a.1 + a.2) = Bytes.zeros a.2
  texts : ∀ a ∈ textFields, data'.extract a.1 (a.1 + a.2) =
    (textField a.2).bytes ((textField a.2).get data a.1)
  upperHalf : Layout.u8.get data 22 = 0 → data'.extract 44 48 = Bytes.zeros 4

theorem lowerHalf_eq (low high : UInt32) (legacy : Prop) [Decidable legacy] :
    (low.toUInt64 + if legacy then 0 else high.toUInt64 * 0x100000000).toUInt32 = low := by
  have hl := low.toNat_lt
  apply UInt32.toNat.inj
  split <;>
    simp only [UInt64.toNat_toUInt32, UInt64.toNat_add, UInt64.toNat_mul, UInt32.toNat_toUInt64,
      UInt64.reduceToNat] <;>
    omega

theorem upperHalf_eq (low high : UInt32) (legacy : Prop) [Decidable legacy] :
    ((low.toUInt64 + if legacy then 0 else high.toUInt64 * 0x100000000) >>> 32).toUInt32 =
      if legacy then 0 else high := by
  have hl := low.toNat_lt
  have hh := high.toNat_lt
  apply UInt32.toNat.inj
  split <;>
    simp only [UInt64.toNat_toUInt32, UInt64.toNat_add, UInt64.toNat_mul, UInt32.toNat_toUInt64,
      UInt64.toNat_shiftRight, UInt64.reduceToNat, UInt32.reduceToNat, Nat.reduceMod,
      Nat.shiftRight_eq_div_pow] <;>
    omega

/-- The header of a file with another author and description. -/
def withAuthor (author description : String) (data : ByteArray) : Header :=
  { layout.get data 0 with author, description }

variable {data : ByteArray} (author description : String)

theorem lowerHalf_withAuthor (data : ByteArray) :
    (withAuthor author description data).rerecordCount.toUInt32 = Layout.u32.get data 16 := by
  rw [withAuthor, layout_get]
  exact lowerHalf_eq _ _ _

theorem upperHalf_withAuthor (data : ByteArray) :
    ((withAuthor author description data).rerecordCount >>> 32).toUInt32 =
      if Layout.u8.get data 22 = 0 then 0 else Layout.u32.get data 44 := by
  rw [withAuthor, layout_get]
  exact upperHalf_eq _ _ _

/-- In front of the author, a member is written as it stood unless it is loose. -/
theorem front_withAuthor (h : size ≤ data.size) (hmagic : Layout.u32.get data 0 = magic) :
    ∀ e ∈ Member.placed (members.take 27) 0,
      e.2.layout.bytes (e.2.get (withAuthor author description data)) =
          data.extract e.1 (e.1 + e.2.layout.size) ∨
        (e.1, e.2.layout.size) ∈ gaps ++ textFields ∨
        Layout.u8.get data 22 = 0 ∧ e.1 = 44 ∧ e.2.layout.size = 4 := by
  have hfits {k n : Nat} (hk : k + n ≤ size) : k + n ≤ data.size := Nat.le_trans hk h
  have hu8 {k : Nat} (hk : k + 1 ≤ size) := Layout.u8_lossless (hfits hk)
  have hu16 {k : Nat} (hk : k + 2 ≤ size) := Layout.u16_lossless (hfits hk)
  have hu32 {k : Nat} (hk : k + 4 ≤ size) := Layout.u32_lossless (hfits hk)
  have htag : (36 : Nat) + 4 ≤ size := by decide
  have hlow := lowerHalf_withAuthor author description data
  have hhigh := upperHalf_withAuthor author description data
  rw [withAuthor, layout_get] at hlow hhigh ⊢
  simp only [members, List.take_succ_cons, List.take_zero, Member.placed, List.forall_mem_cons,
    List.not_mem_nil, false_implies, implies_true, and_true, hlow, hhigh]
  refine ⟨.inl ?_, .inl (hu32 (by decide)), .inl (hu32 (by decide)), .inl (hu32 (by decide)),
    .inl (hu32 (by decide)), .inl (hu8 (by decide)), .inl (hu8 (by decide)),
    .inl (hu8 (by decide)), .inl (hu8 (by decide)), .inl (hu32 (by decide)),
    .inl (hu16 (by decide)), .inr (.inl (by decide)), .inl (hu32 (by decide)),
    .inl (Layout.block_lossless 4 (hfits htag)), .inl (hu32 (by decide)), ?_,
    .inr (.inl (by decide)), .inr (.inl (by decide)), .inr (.inl (by decide)),
    .inr (.inl (by decide)), .inl (hu32 (by decide)), .inl (hu16 (by decide)),
    .inr (.inl (by decide)), .inr (.inl (by decide)), .inr (.inl (by decide)),
    .inr (.inl (by decide)), .inr (.inl (by decide))⟩
  · change Layout.u32.bytes magic = _
    rw [← hmagic]
    exact hu32 (by decide)
  · by_cases hlegacy : Layout.u8.get data 22 = 0
    · exact .inr (.inr ⟨hlegacy, rfl, rfl⟩)
    · rw [if_neg hlegacy]
      exact .inl (hu32 (by decide))

/-- Each member stands at its place in a header, whatever follows. -/
theorem extract_toBytes (h : Header) (rest : ByteArray) :
    ∀ e ∈ Member.placed members 0,
      (h.toBytes ++ rest).extract e.1 (e.1 + e.2.layout.size) = e.2.layout.bytes (e.2.get h) := by
  intro e he
  have hplaced := h.members_restoredAs.extract_putAll ByteArray.empty rest he
  rwa [ByteArray.empty_append] at hplaced

/-- What stands in a header that was written, but for its numbers. -/
structure Areas (h : Header) (data : ByteArray) : Prop where
  gaps : ∀ a ∈ gaps, data.extract a.1 (a.1 + a.2) = Bytes.zeros a.2
  texts : ∀ p ∈ textFields.zip h.texts,
    data.extract p.1.1 (p.1.1 + p.1.2) = (textField p.1.2).bytes p.2.2
  upperHalf : data.extract 44 48 = Layout.u32.bytes (h.rerecordCount >>> 32).toUInt32
  author : data.extract 0x222 0x300 = (textField 222).bytes h.author
  description : data.extract 0x300 0x400 = (textField 256).bytes h.description

theorem areas_toBytes (h : Header) (rest : ByteArray) : Areas h (h.toBytes ++ rest) := by
  have hplaced := extract_toBytes h rest
  generalize h.toBytes ++ rest = data at hplaced
  simp only [members, Member.placed, List.forall_mem_cons] at hplaced
  obtain ⟨-, -, -, -, -, -, -, -, -, -, -, hgap₁, -, -, -, hupper, hgap₂, htext₁, htext₂, htext₃, -,
    -, hgap₃, htext₄, htext₅, htext₆, htext₇, hauthor, hdescription, -⟩ := hplaced
  constructor
  case gaps =>
    simp only [gaps, List.forall_mem_cons, List.not_mem_nil, false_implies, implies_true, and_true]
    exact ⟨hgap₁, hgap₂, hgap₃⟩
  case texts =>
    simp only [textFields, texts, List.zip_cons_cons, List.zip_nil_left, List.forall_mem_cons,
      List.not_mem_nil, false_implies, implies_true, and_true]
    exact ⟨htext₁, htext₂, htext₃, htext₄, htext₅, htext₆, htext₇⟩
  case upperHalf => exact hupper
  case author => exact hauthor
  case description => exact hdescription

/-- What becomes of a file when its front is written anew with another author and description. -/
theorem edited_withAuthor (h : size ≤ data.size) (hmagic : Layout.u32.get data 0 = magic) :
    Edited author description data
      ((withAuthor author description data).toBytes ++ data.extract size data.size) := by
  have hsize := size_toBytes (withAuthor author description data)
  have hplaced := extract_toBytes (withAuthor author description data)
    (data.extract size data.size)
  have hareas := areas_toBytes (withAuthor author description data) (data.extract size data.size)
  have hbehind (i : Nat) (hi : size ≤ i) := Bytes.peek_append_extract data
    (show (withAuthor author description data).toBytes.size ≤ i from hsize ▸ hi)
  rw [hsize] at hbehind
  have hsame : ((withAuthor author description data).toBytes ++ data.extract size data.size).size =
      data.size := by
    rw [ByteArray.size_append, ByteArray.size_extract, hsize, Nat.min_self]
    omega
  generalize (withAuthor author description data).toBytes ++ data.extract size data.size = data'
    at hplaced hareas hbehind hsame
  constructor
  case size_eq => exact hsame
  case behind => exact hbehind
  case author => exact hareas.author
  case description => exact hareas.description
  case kept =>
    intro i hi hloose
    have hfront := front_withAuthor author description h hmagic
    obtain ⟨e, he, hle, hlt⟩ := Member.exists_placed (Nat.zero_le i)
      (show i < 0 + Member.totalSize (members.take 27) from hi)
    have hend : e.1 + e.2.layout.size ≤ 0x222 := Member.le_of_mem_placed he
    have hdata : e.1 + e.2.layout.size ≤ data.size := by
      have hheader : size = 1024 := rfl
      omega
    obtain hsame' | harea | ⟨hlegacy, hoffset, hwidth⟩ := hfront e he
    · have hmember : e ∈ Member.placed members 0 := by
        rw [← List.take_append_drop 27 members, Member.placed_append]
        exact List.mem_append_left _ he
      rw [← hplaced e hmember] at hsame'
      exact (Bytes.extract_eq_iff (hsame ▸ hdata) hdata).1 hsame' i hle hlt
    · exact absurd (.inl ⟨_, harea, hle, hlt⟩) hloose
    · exact absurd (.inr ⟨hlegacy, by omega, by omega⟩) hloose
  case gaps => exact hareas.gaps
  case texts =>
    have htexts := hareas.texts
    simp only [textFields, texts, List.zip_cons_cons, List.zip_nil_left, List.forall_mem_cons,
      List.not_mem_nil, false_implies, implies_true, and_true] at htexts ⊢
    exact htexts
  case upperHalf =>
    intro hlegacy
    rw [hareas.upperHalf, upperHalf_withAuthor, if_pos hlegacy]
    rfl

namespace Edited

variable {author description : String} {data data' : ByteArray}

/-- What stood in front of the author stays as it was if and only if it was tidy. -/
theorem unchanged_iff (h : Edited author description data data') (hsize : size ≤ data.size) :
    (∀ i < 0x222, Bytes.peek data' i = Bytes.peek data i) ↔ Tidy data := by
  have hsize : 1024 ≤ data.size := hsize
  have harea {a : Nat × Nat} (ha : a.1 + a.2 ≤ 0x222) :
      data'.extract a.1 (a.1 + a.2) = data.extract a.1 (a.1 + a.2) ↔
        ∀ i, a.1 ≤ i → i < a.1 + a.2 → Bytes.peek data' i = Bytes.peek data i :=
    Bytes.extract_eq_iff (by rw [h.size_eq]; omega) (by omega)
  have hgaps : ∀ a ∈ Header.gaps, a.1 + a.2 ≤ 0x222 := by decide
  have htexts : ∀ a ∈ textFields, 0 < a.2 ∧ a.1 + a.2 ≤ 0x222 := by decide
  constructor
  · intro hsame
    have hback {a : Nat × Nat} (ha : a.1 + a.2 ≤ 0x222) :
        data'.extract a.1 (a.1 + a.2) = data.extract a.1 (a.1 + a.2) :=
      (harea ha).2 fun i _ hi => hsame i (by omega)
    constructor
    case gaps =>
      intro a ha
      rw [← hback (hgaps a ha), h.gaps a ha]
    case texts =>
      intro a ha
      obtain ⟨hpos, hle⟩ := htexts a ha
      exact (bytes_get_textField_iff hpos data a.1).1 ((h.texts a ha).symm.trans (hback hle))
    case upperHalf =>
      intro hlegacy
      exact (hback (a := (44, 4)) (by decide)).symm.trans (h.upperHalf hlegacy)
  · intro htidy i hi
    by_cases hloose : Loose data i
    · obtain ⟨a, ha, hle, hlt⟩ | ⟨hlegacy, hle, hlt⟩ := hloose
      · obtain ha | ha := List.mem_append.1 ha
        · exact (harea (hgaps a ha)).1 ((h.gaps a ha).trans (htidy.gaps a ha).symm) i hle hlt
        · obtain ⟨hpos, hend⟩ := htexts a ha
          have hfield := (bytes_get_textField_iff hpos data a.1).2 (htidy.texts a ha)
          exact (harea hend).1 ((h.texts a ha).trans hfield) i hle hlt
      · have hword := (h.upperHalf hlegacy).trans (htidy.upperHalf hlegacy).symm
        exact (harea (a := (44, 4)) (by decide)).1 hword i hle hlt
    · exact h.kept i hi hloose

end Edited

/-- Where there is no place for the upper half of a plain header's rerecord count, it is zero. -/
theorem Plain.upperHalf_eq_zero {h : Header} (hp : h.Plain) (hlegacy : h.extendedVersion = 0) :
    (h.rerecordCount >>> 32).toUInt32 = 0 := by
  have hlow := congrArg UInt64.toNat (hp.rerecordCount hlegacy)
  have hl := h.rerecordCount.toUInt32.toNat_lt
  rw [UInt32.toNat_toUInt64] at hlow
  apply UInt32.toNat.inj
  simp only [UInt64.toNat_toUInt32, UInt64.toNat_shiftRight, UInt64.reduceToNat, Nat.reduceMod,
    Nat.shiftRight_eq_div_pow, UInt32.reduceToNat]
  omega

/-- A plain header is written tidily. -/
theorem tidy_toBytes {h : Header} (hp : h.Plain) (rest : ByteArray) :
    Tidy (h.toBytes ++ rest) := by
  have hareas := areas_toBytes h rest
  have hread : layout.get (h.toBytes ++ rest) 0 = h.readBack := by
    rw [← ByteArray.empty_append (b := h.toBytes ++ rest)]
    exact h.layout_readsAs.get_bytes ByteArray.empty rest
  have hversion := calc
    Layout.u8.get (h.toBytes ++ rest) 22 = (layout.get (h.toBytes ++ rest) 0).extendedVersion := by
      rw [layout_get]
    _ = h.readBack.extendedVersion := congrArg extendedVersion hread
    _ = h.extendedVersion := by rw [readBack_eq]; rfl
  generalize h.toBytes ++ rest = data at hareas hversion
  constructor
  case gaps => exact hareas.gaps
  case texts =>
    intro a ha
    have hpos : ∀ a ∈ textFields, 0 < a.2 := by decide
    have hfields : (textFields.zip h.texts).map Prod.fst = textFields := rfl
    rw [← hfields] at ha
    obtain ⟨p, hmem, rfl⟩ := List.mem_map.1 ha
    obtain ⟨hfield, htext⟩ := List.of_mem_zip hmem
    rw [hareas.texts p hmem]
    exact holdsText_bytes (hpos _ hfield) (hp.texts _ htext)
  case upperHalf =>
    intro hlegacy
    rw [hareas.upperHalf, hp.upperHalf_eq_zero (hversion ▸ hlegacy)]
    rfl

theorem front_of_ofBytes {data : ByteArray} {h : Header} (ho : ofBytes data = .ok h) :
    size ≤ data.size ∧ Layout.u32.get data 0 = magic := by
  unfold ofBytes at ho
  split at ho
  · cases ho
  · next hsize =>
    split at ho
    · cases ho
    · next hmagic => exact ⟨Nat.not_lt.1 hsize, not_not.1 hmagic⟩

end Header

/-- A movie with another author is read with the rest of its header as far as it has room. -/
theorem Recording.ofBytes_withAuthor {data : ByteArray} {r : Recording} (h : ofBytes data = .ok r)
    (author description : String) :
    ∃ inputs, ofBytes ((Header.withAuthor author description data).toBytes ++
        data.extract Header.size data.size) =
      .ok ⟨({ r.header with author, description } : Header).readBack, inputs⟩ := by
  obtain ⟨hheader, hsize⟩ := ofBytes_eq_ok h
  have hversion := Header.version_of_ofBytes hheader
  have hrest : r.header.lengthSamples.toNat * Sample.size ≤
      (data.extract Header.size data.size).size := by
    rw [ByteArray.size_extract]
    omega
  rw [Header.withAuthor, ← (Header.ofBytes_eq_ok hheader).2]
  obtain ⟨inputs, -, hread⟩ :=
    ofBytes_append (h := { r.header with author, description }) hversion hrest
  exact ⟨inputs, hread⟩

/-! ## Files -/

open Storage (Pathname Tree)

/-- What a change of the author does with files. -/
theorem writeAuthor_eq {D : Type} [Storage D] (path : Pathname) (author description : String)
    (disk : D) : writeAuthor (m := StateM D) path author description disk =
      match Storage.read path disk with
      | .error fault => (.error (.io fault), disk)
      | .ok data =>
        match Header.ofBytes data with
        | .error e => (.error e, disk)
        | .ok header =>
          let patched := Storage.patch path { header with author, description }.toBytes disk
          (patched.1.mapError .io, patched.2) := by
  have hread : Files.read (m := StateM D) path disk = (Storage.read path disk, disk) := rfl
  dsimp only [writeAuthor, readHeader, readFile, bind, StateT.bind]
  rw [hread]
  cases Storage.read path disk with
  | error fault => rfl
  | ok data =>
    dsimp only [pure, StateT.pure]
    cases Header.ofBytes data with
    | error e => rfl
    | ok header => rfl

/-- Only a file with a header is given another author. -/
theorem ofBytes_of_writeAuthor {path : Pathname} {author description : String} {t t' : Tree}
    (h : writeAuthor (m := StateM Tree) path author description t = (.ok (), t')) :
    ∃ data header, Storage.read path t = .ok data ∧ Header.ofBytes data = .ok header := by
  rw [writeAuthor_eq] at h
  cases hread : Storage.read path t with
  | error fault => rw [hread] at h; cases h
  | ok data =>
    cases hheader : Header.ofBytes data with
    | error e =>
      rw [hread] at h
      simp only [hheader] at h
      cases h
    | ok header => exact ⟨data, header, rfl, hheader⟩

/-- Every such file is, and keeps what follows its header. -/
theorem writeAuthor_of_ofBytes {path : Pathname} {t : Tree} {data : ByteArray} {header : Header}
    (hread : Storage.read path t = .ok data) (ho : Header.ofBytes data = .ok header)
    (author description : String) : ∃ t',
      writeAuthor (m := StateM Tree) path author description t = (.ok (), t') ∧
      Storage.read path t' = .ok ((Header.withAuthor author description data).toBytes ++
        data.extract Header.size data.size) := by
  obtain ⟨-, rfl⟩ := Header.ofBytes_eq_ok ho
  obtain ⟨t', hpatch, hpatched⟩ :=
    Tree.patch_of_read hread (Header.withAuthor author description data).toBytes
  have hpatch : Storage.patch path (Header.withAuthor author description data).toBytes t =
      (.ok (), t') := hpatch
  refine ⟨t', ?_, ?_⟩
  · rw [writeAuthor_eq, hread]
    simp only [ho]
    rw [Header.withAuthor] at hpatch
    rw [hpatch]
    rfl
  · rw [Bytes.overwrite_front, Header.size_toBytes] at hpatched
    exact hpatched

/-- **A change of the author leaves the rest of a tidy file alone, and of no other.** Where the
author and the description of a movie's file are changed, the file is as long as before, holds both
texts as their fields keep them, and goes on behind its header as before. In front of the author,
unused areas are zero and texts are written as they were read; everything else stays. So nothing but
the two fields has changed if and only if nothing but zeros and texts stood there. -/
theorem writeAuthor_unchanged_iff {path : Pathname} {author description : String} {t t' : Tree}
    (h : writeAuthor (m := StateM Tree) path author description t = (.ok (), t')) :
    ∃ data data', Storage.read path t = .ok data ∧ Storage.read path t' = .ok data' ∧
      Header.Edited author description data data' ∧
      ((∀ i, i < 0x222 ∨ 0x400 ≤ i → Bytes.peek data' i = Bytes.peek data i) ↔
        Header.Tidy data) := by
  obtain ⟨data, header, hread, ho⟩ := ofBytes_of_writeAuthor h
  obtain ⟨t'', hwrite, hread'⟩ := writeAuthor_of_ofBytes hread ho author description
  cases h.symm.trans hwrite
  obtain ⟨hsize, hmagic⟩ := Header.front_of_ofBytes ho
  have hedited := Header.edited_withAuthor author description hsize hmagic
  refine ⟨data, _, hread, hread', hedited, ?_⟩
  rw [← hedited.unchanged_iff hsize]
  exact ⟨fun hsame i hi => hsame i (.inl hi), fun hsame i hi =>
    hi.elim (hsame i) (hedited.behind i)⟩

/-- A file of one movie. -/
def oneFile (data : ByteArray) : Tree := { entries := [(["run.m64"], .file data)] }

theorem read_oneFile (data : ByteArray) :
    Storage.read ⟨"run.m64"⟩ (oneFile data) = .ok data := by
  rfl

/-- A header that says where it was made, and one sample. -/
def namedHeader : Header := { romName := "SUPER MARIO 64", plugins.video := "GLideN64" }

theorem plain_namedHeader : namedHeader.Plain where
  texts := by decide
  rerecordCount h := absurd h (by decide)

theorem writeAuthor_unchanged_named :
    let data := namedHeader.toBytes ++ ⟨#[1, 2, 3, 4]⟩
    ∃ t' data',
      writeAuthor (m := StateM Tree) ⟨"run.m64"⟩ "someone" "a new route" (oneFile data) =
        (.ok (), t') ∧
      Storage.read ⟨"run.m64"⟩ t' = .ok data' ∧
      data'.extract 0x222 0x300 = Bytes.fit 222 "someone".toUTF8 ∧
      ∀ i, i < 0x222 ∨ 0x400 ≤ i → Bytes.peek data' i = Bytes.peek data i := by
  intro data
  have hread := read_oneFile data
  have hheader := Header.ofBytes_append (h := namedHeader) rfl ⟨#[1, 2, 3, 4]⟩
  obtain ⟨t', hwrite, -⟩ := writeAuthor_of_ofBytes hread hheader "someone" "a new route"
  obtain ⟨data₀, data', hread₀, hread', hedited, hunchanged⟩ := writeAuthor_unchanged_iff hwrite
  obtain rfl : data = data₀ := Except.ok.inj (hread.symm.trans hread₀)
  exact ⟨t', data', hwrite, hread', hedited.author.trans (bytes_textField_of_fits (by decide)),
    hunchanged.2 (Header.tidy_toBytes plain_namedHeader _)⟩

/-- A header all of whose areas are in use. -/
def crammed : ByteArray :=
  Layout.u32.bytes magic ++ (Layout.u32.bytes version ++ ⟨Array.replicate 1016 1⟩)

theorem ofBytes_crammed : ∃ header, Header.ofBytes crammed = .ok header := by
  have hmagic : Layout.u32.get crammed 0 = magic :=
    (Layout.u32_readsAs magic).get_bytes ByteArray.empty _
  have hversion : Layout.u32.get crammed 4 = version :=
    (Layout.u32_readsAs version).get_bytes (Layout.u32.bytes magic) _
  have hsize : crammed.size = Header.size := by decide +kernel
  rw [Header.ofBytes, if_neg (by omega), hmagic, if_neg (by simp), hversion]
  exact ⟨_, rfl⟩

/-- Such a file does not keep what stands in them. -/
theorem writeAuthor_changes_crammed : ∃ t' data',
    writeAuthor (m := StateM Tree) ⟨"run.m64"⟩ "someone" "a new route" (oneFile crammed) =
      (.ok (), t') ∧
    Storage.read ⟨"run.m64"⟩ t' = .ok data' ∧
    Bytes.peek data' 30 = 0 ∧ Bytes.peek crammed 30 = 1 := by
  obtain ⟨header, hheader⟩ := ofBytes_crammed
  obtain ⟨t', hwrite, hread⟩ :=
    writeAuthor_of_ofBytes (read_oneFile crammed) hheader "someone" "a new route"
  obtain ⟨hsize, hmagic⟩ := Header.front_of_ofBytes hheader
  have hedited := Header.edited_withAuthor "someone" "a new route" hsize hmagic
  refine ⟨t', _, hwrite, hread, ?_, by decide +kernel⟩
  generalize (Header.withAuthor "someone" "a new route" crammed).toBytes ++
    crammed.extract Header.size crammed.size = data' at hedited
  have hheader : Header.size = 1024 := rfl
  have hfits : 30 + 2 ≤ data'.size := by
    rw [hedited.size_eq]
    omega
  have hgap : data'.extract 30 (30 + 2) = Bytes.zeros 2 := hedited.gaps (30, 2) (.head _)
  calc
    Bytes.peek data' 30 = Bytes.peek (data'.extract 30 (30 + 2)) 0 :=
      (Bytes.peek_extract (j := 0) hfits (by decide)).symm
    _ = 0 := by rw [hgap]; rfl

end Movie

end Rewind
