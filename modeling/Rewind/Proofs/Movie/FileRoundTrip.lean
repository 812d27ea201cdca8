import Rewind.Proofs.Movie.RecordingLayout
import Rewind.Proofs.Storage.Writes

/-!
Movie files read back. A header that was read from anywhere is plain: its texts hold no zero
character, for text ends where a zero byte stands, and where there is no place for the upper half of
the rerecord count it has none. What a field cuts off a plain header is cut off for good, so such a
header is written as before once it was written and read back (`toBytes_readBack`). Main statement:
a movie file gives back the samples and as much of the header as the format keeps
(`readRecording_of_writeRecording`).
-/

namespace Rewind.Movie

open Wire

/-! ## Text that was cut before -/

theorem clip_of_zero_notMem {width : Nat} {text : String} (h : '\x00' ∉ text.toList) :
    clip width text = String.ofList (Text.cutTo (width - 1) text.toList) := by
  have hmem := (Text.isPrefix_cutTo_iff.1 (List.prefix_refl (Text.cutTo (width - 1) text.toList))).1
  have hall : ∀ c ∈ Text.cutTo (width - 1) text.toList, (c != '\x00') = true :=
    fun c hc => bne_iff_ne.2 fun he => h (hmem.subset (he ▸ hc))
  rw [clip, List.takeWhile_eq_self_iff.2 hall]

/-- A field keeps the longest part from the front that leaves room for a zero byte, and of it what
stands in front of the first zero character. -/
theorem clip_eq (width : Nat) (text : String) :
    ∃ front, clip width text = String.ofList (front.takeWhile (· != '\x00')) ∧
      front <+: text.toList ∧ (String.ofList front).utf8ByteSize ≤ width - 1 ∧
      ∀ other, other <+: text.toList → (String.ofList other).utf8ByteSize ≤ width - 1 →
        other <+: front := by
  have hfront := Text.isPrefix_cutTo_iff.1 (List.prefix_refl (Text.cutTo (width - 1) text.toList))
  rw [Text.length_utf8] at hfront
  refine ⟨_, rfl, hfront.1, hfront.2, fun other hp hl => Text.isPrefix_cutTo_iff.2 ⟨hp, ?_⟩⟩
  rwa [Text.length_utf8]

/-- What a field keeps of a text stands at its front, and leaves room for a zero byte. -/
theorem front_clip (width : Nat) (text : String) :
    (clip width text).toList <+: text.toList ∧ (clip width text).utf8ByteSize ≤ width - 1 := by
  have hcut : (clip width text).toList <+: Text.cutTo (width - 1) text.toList := by
    rw [clip, String.toList_ofList]
    exact List.takeWhile_prefix _
  obtain ⟨hfront, hlength⟩ := Text.isPrefix_cutTo_iff.1 hcut
  rw [Text.length_utf8, String.ofList_toList] at hlength
  exact ⟨hfront, hlength⟩

theorem zero_notMem_clip (width : Nat) (text : String) : '\x00' ∉ (clip width text).toList := by
  rw [clip, String.toList_ofList]
  exact fun h => by simpa using List.mem_takeWhile_imp h

/-- A field keeps all of what it kept before. -/
theorem clip_clip {width : Nat} (hw : 0 < width) (text : String) :
    clip width (clip width text) = clip width text := by
  have hsize := (front_clip width text).2
  exact clip_of_fits (by omega) (zero_notMem_clip width text)

/-- A field takes no less of a text than of what it kept of it. -/
theorem put_clip {width : Nat} {text : String} (h : '\x00' ∉ text.toList) :
    (textField width).put (clip width text) = (textField width).put text := by
  funext out
  simp only [textField, clip_of_zero_notMem h, String.toList_ofList, Text.cutTo_cutTo]

theorem zero_notMem_get (width : Nat) (data : ByteArray) (offset : Nat) :
    '\x00' ∉ ((textField width).get data offset).toList := by
  simp only [textField, String.toList_ofList]
  exact Text.zero_notMem_decodeLossy fun h => by simpa using List.mem_takeWhile_imp h

namespace Header

/-- The texts of a header, each with the width of its field. -/
def texts (h : Header) : List (Nat × String) :=
  [(48, h.oldAuthor), (80, h.oldDescription), (32, h.romName), (64, h.plugins.video),
    (64, h.plugins.audio), (64, h.plugins.input), (64, h.plugins.rsp), (222, h.author),
    (256, h.description)]

theorem clipped_of_fits {h : Header}
    (hf : ∀ t ∈ h.texts, t.2.utf8ByteSize < t.1 ∧ '\x00' ∉ t.2.toList) : h.clipped = h := by
  have hclip : ∀ t ∈ h.texts, clip t.1 t.2 = t.2 := fun t ht => clip_of_fits (hf t ht).1 (hf t ht).2
  simp only [texts, List.forall_mem_cons, List.not_mem_nil, false_implies, implies_true,
    and_true] at hclip
  obtain ⟨h₁, h₂, h₃, h₄, h₅, h₆, h₇, h₈, h₉⟩ := hclip
  rw [clipped, h₁, h₂, h₃, h₄, h₅, h₆, h₇, h₈, h₉]

/-- What can be read from a file. -/
structure Plain (h : Header) : Prop where
  texts : ∀ t ∈ h.texts, '\x00' ∉ t.2.toList
  rerecordCount : h.extendedVersion = 0 → h.rerecordCount.toUInt32.toUInt64 = h.rerecordCount

theorem texts_get (data : ByteArray) :
    ∀ t ∈ (layout.get data 0).texts, ∃ offset, t.2 = (textField t.1).get data offset := by
  simp only [Header.texts, List.forall_mem_cons, List.not_mem_nil, false_implies, implies_true,
    and_true]
  exact ⟨⟨_, rfl⟩, ⟨_, rfl⟩, ⟨_, rfl⟩, ⟨_, rfl⟩, ⟨_, rfl⟩, ⟨_, rfl⟩, ⟨_, rfl⟩, ⟨_, rfl⟩, ⟨_, rfl⟩⟩

theorem extendedVersion_upperHalf (v : UInt32) (h : Header) :
    (upperHalf.set v h).extendedVersion = h.extendedVersion := by
  simp only [upperHalf]
  split <;> rfl

/-- The upper half of the rerecord count is read between the members that say whether it counts and
those that have nothing to do with it. -/
theorem get_eq (data : ByteArray) :
    layout.get data 0 = Member.getAll (members.drop 16) (upperHalf.set (Layout.u32.get data 44)
      (Member.getAll (members.take 15) {} data 0)) data 48 := rfl

theorem rerecordCount_get {data : ByteArray} (h : (layout.get data 0).extendedVersion = 0) :
    (layout.get data 0).rerecordCount = (Layout.u32.get data 16).toUInt64 := by
  have hback (r : Header) :
      (Member.getAll (members.drop 16) r data 48).extendedVersion = r.extendedVersion ∧
        (Member.getAll (members.drop 16) r data 48).rerecordCount = r.rerecordCount := ⟨rfl, rfl⟩
  have hfront : (Member.getAll (members.take 15) {} data 0).rerecordCount =
      (Layout.u32.get data 16).toUInt64 := rfl
  rw [get_eq, (hback _).1, extendedVersion_upperHalf] at h
  rw [get_eq, (hback _).2, ← hfront]
  generalize Member.getAll (members.take 15) {} data 0 = front at h ⊢
  exact congrArg rerecordCount (if_pos h)

theorem plain_get (data : ByteArray) : (layout.get data 0).Plain where
  texts t ht := by
    obtain ⟨offset, hoffset⟩ := texts_get data t ht
    rw [hoffset]
    exact zero_notMem_get _ _ _
  rerecordCount h := by rw [rerecordCount_get h, UInt32.toUInt32_toUInt64]

/-- A plain header is written as before after it was written and read back. -/
theorem toBytes_readBack {h : Header} (hp : h.Plain) : h.readBack.toBytes = h.toBytes := by
  have hcount : (if h.extendedVersion = 0 then h.rerecordCount.toUInt32.toUInt64
      else h.rerecordCount) = h.rerecordCount := by
    split
    · next he => exact hp.rerecordCount he
    · rfl
  have hback : h.readBack = h.clipped := by rw [readBack_eq, hcount]; rfl
  have htexts : ∀ t ∈ h.texts, (textField t.1).put (clip t.1 t.2) = (textField t.1).put t.2 :=
    fun t ht => put_clip (hp.texts t ht)
  have hput : Member.putAll members h.clipped = Member.putAll members h := by
    refine Member.putAll_congr ?_
    simp only [texts, members, List.forall_mem_cons, List.not_mem_nil, false_implies,
      implies_true, and_true] at htexts ⊢
    obtain ⟨h₁, h₂, h₃, h₄, h₅, h₆, h₇, h₈, h₉⟩ := htexts
    exact ⟨rfl, rfl, rfl, rfl, rfl, rfl, rfl, rfl, rfl, rfl, rfl, rfl, rfl, rfl, rfl, rfl, rfl,
      h₁, h₂, h₃, rfl, rfl, rfl, h₄, h₅, h₆, h₇, h₈, h₉⟩
  rw [hback]
  exact congrFun hput _

/-- A header that was read, from whatever bytes, is written as bytes that are read and written as
they are. -/
theorem ofBytes_toBytes_of_read {data : ByteArray} {h : Header} (ho : ofBytes data = .ok h) :
    ofBytes h.toBytes = .ok h.readBack ∧ h.readBack.toBytes = h.toBytes := by
  have hread := ofBytes_append (version_of_ofBytes ho) ByteArray.empty
  rw [ByteArray.append_empty] at hread
  exact ⟨hread, toBytes_readBack ((ofBytes_eq_ok ho).2 ▸ plain_get data)⟩

theorem size_toBytes (h : Header) : h.toBytes.size = size :=
  (layout_readsAs h).size_bytes

end Header

/-! ## Movie files -/

open Storage (Pathname Tree)

theorem Recording.readBack_counted (h : Header) (inputs : Array Sample) :
    (counted ⟨h, inputs⟩).header.readBack = { h.clipped with
      lengthSamples := UInt32.ofNat inputs.size
      rerecordCount := if h.extendedVersion = 0
        then UInt64.ofNat (h.rerecordCount.toNat % UInt32.size) else h.rerecordCount } := by
  have hlow : h.rerecordCount.toUInt32.toUInt64 =
      UInt64.ofNat (h.rerecordCount.toNat % UInt32.size) :=
    UInt64.toNat.inj (by
      simp only [UInt32.toNat_toUInt64, UInt64.toNat_toUInt32, UInt64.toNat_ofNat', UInt32.size]
      omega)
  rw [Header.readBack_eq, ← hlow]
  rfl

/-- **A movie file gives back what was written**: every sample, and the header with the number of
samples, its texts as their fields keep them, and the lower half of its rerecord count where the
extended block is not in use. A field keeps the longest part of a text that fits, up to the first
zero character. And any bytes that are read as a header settle at once. -/
theorem readRecording_of_writeRecording {h : Header} (hv : h.version = Movie.version)
    {inputs : Array Sample} (hs : inputs.size < UInt32.size) :
    h.toBytes.size = 1024 ∧
      (∀ (path : Pathname) (disk disk' : Tree),
        writeRecording (m := StateM Tree) path ⟨h, inputs⟩ disk = (.ok (), disk') →
        readRecording (m := StateM Tree) path disk' = (.ok ⟨{ h.clipped with
          lengthSamples := UInt32.ofNat inputs.size
          rerecordCount := if h.extendedVersion = 0
            then UInt64.ofNat (h.rerecordCount.toNat % UInt32.size) else h.rerecordCount }, inputs⟩,
          disk')) ∧
      (∀ (width : Nat) (text : String),
        ∃ front, clip width text = String.ofList (front.takeWhile (· != '\x00')) ∧
          front <+: text.toList ∧ (String.ofList front).utf8ByteSize ≤ width - 1 ∧
          ∀ other, other <+: text.toList → (String.ofList other).utf8ByteSize ≤ width - 1 →
            other <+: front) ∧
      ((∀ t ∈ h.texts, t.2.utf8ByteSize < t.1 ∧ '\x00' ∉ t.2.toList) → h.clipped = h) ∧
      ∀ (data : ByteArray) (header : Header), Header.ofBytes data = .ok header →
        ∃ header', Header.ofBytes header.toBytes = .ok header' ∧
          header'.toBytes = header.toBytes := by
  refine ⟨h.size_toBytes, fun path disk disk' hw => ?_, clip_eq, Header.clipped_of_fits,
    fun data header ho => ⟨_, Header.ofBytes_toBytes_of_read ho⟩⟩
  have hw : Storage.write path (Recording.counted ⟨h, inputs⟩).toBytes disk = (.ok (), disk') := by
    obtain ⟨hok, hdisk⟩ := Prod.mk.inj hw
    exact Prod.ext (eq_ok_of_mapError hok) hdisk
  have hread : Storage.read path disk' = .ok (Recording.counted ⟨h, inputs⟩).toBytes :=
    Storage.Tree.read_write hw
  have hback := Recording.ofBytes_toBytes (r := ⟨h, inputs⟩) hv hs
  rw [Recording.readBack_counted] at hback
  rw [readRecording_eq, hread]
  exact congrArg (·, disk') hback

/-- A header from before the extended block, with more rerecords than it can count, and a name that
is cut between characters. -/
def oldHeader : Header :=
  { extendedVersion := 0
    rerecordCount := 0x100000005
    romName := String.ofList (List.replicate 16 'é') }

theorem readRecording_of_writeRecording_old :
    oldHeader.version = Movie.version ∧ ∃ disk' : Tree,
      writeRecording (m := StateM Tree) ⟨"run.m64"⟩ ⟨oldHeader, #[.neutral]⟩ {} = (.ok (), disk') ∧
      readRecording (m := StateM Tree) ⟨"run.m64"⟩ disk' = (.ok ⟨{ oldHeader.clipped with
        lengthSamples := 1
        rerecordCount := 5 }, #[.neutral]⟩, disk') ∧
      oldHeader.clipped.romName = String.ofList (List.replicate 15 'é') := by
  have hwrite : writeRecording (m := StateM Tree) ⟨"run.m64"⟩ ⟨oldHeader, #[.neutral]⟩ {} =
      (.ok (), (writeRecording (m := StateM Tree) ⟨"run.m64"⟩ ⟨oldHeader, #[.neutral]⟩ {}).2) :=
    Prod.ext rfl rfl
  have hname : clip 32 (String.ofList (List.replicate 16 'é')) =
      String.ofList (List.replicate 15 'é') := by
    rw [clip, String.toList_ofList]
    rfl
  exact ⟨rfl, _, hwrite, (readRecording_of_writeRecording rfl (by decide)).2.1 _ _ _ hwrite, hname⟩

end Rewind.Movie
