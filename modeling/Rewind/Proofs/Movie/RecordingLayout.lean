import Mathlib.Data.List.TakeWhile
import Rewind.Movie.Recording
import Rewind.Proofs.Movie.FreezeLayout
import Rewind.Proofs.Text.Utf8

/-!
Movie files read back. Main statement: a recording is read back from its bytes with the same samples
and the same header, but for texts that do not fit their fields (`Recording.ofBytes_toBytes`).
-/

namespace Rewind

namespace Movie

open Wire

/-! ## Text in fields -/

/-- What a field of `width` bytes keeps of a text: what fits, up to the first zero character. -/
def clip (width : Nat) (text : String) : String :=
  String.ofList ((Text.cutTo (width - 1) text.toList).takeWhile (· != '\x00'))

theorem textField_readsAs {width : Nat} (h : 0 < width) (text : String) :
    (textField width).ReadsAs text (clip width text) := by
  have hsize := Bytes.size_fit width
    (String.ofList (Text.cutTo (width - 1) text.toList)).toUTF8
  refine ⟨fun out => ?_, ?_, fun front rest => ?_⟩
  · simp [textField, Layout.bytes]
  · simp [textField, Layout.bytes]
  · generalize hcs : Text.cutTo (width - 1) text.toList = cs at hsize
    have hlength : (Text.utf8 cs).length ≤ width - 1 := hcs ▸ Text.length_utf8_cutTo_le _ _
    have hbytes : (String.ofList cs).toUTF8.size = (Text.utf8 cs).length :=
      (Text.length_utf8 cs).symm
    have hfit : (Bytes.fit width (String.ofList cs).toUTF8).data.toList =
        Text.utf8 cs ++ List.replicate (width - 1 - (Text.utf8 cs).length + 1) 0 := by
      -- At least one byte is left over: the zero at which the text ends.
      have hzeros : width - (Text.utf8 cs).length = width - 1 - (Text.utf8 cs).length + 1 := by
        omega
      rw [Bytes.fit, if_neg (by omega), if_pos (by omega), hbytes, hzeros, ByteArray.data_append,
        Array.toList_append, Text.toList_toUTF8]
      simp [Bytes.zeros]
    have hget : (textField width).get
        (front ++ (Bytes.fit width (String.ofList cs).toUTF8 ++ rest)) front.size =
          String.ofList (Text.decodeLossy
            ((Bytes.fit width (String.ofList cs).toUTF8).data.toList.takeWhile (· != 0))) := by
      simp only [textField, Layout.extract_middle hsize]
    have hput : (textField width).bytes text = Bytes.fit width (String.ofList cs).toUTF8 := by
      simp [textField, Layout.bytes, hcs]
    rw [hput, hget, hfit, Text.takeWhile_utf8, Text.decodeLossy_utf8, clip, hcs]

theorem clip_of_fits {width : Nat} {text : String} (h : text.utf8ByteSize < width)
    (hn : '\x00' ∉ text.toList) : clip width text = text := by
  have hlength : (Text.utf8 text.toList).length = text.utf8ByteSize := by
    rw [Text.length_utf8, String.ofList_toList]
  have hall : ∀ c ∈ text.toList, (c != '\x00') = true :=
    fun c hc => bne_iff_ne.2 fun he => hn (he ▸ hc)
  have htake : text.toList.takeWhile (· != '\x00') = text.toList :=
    List.takeWhile_eq_self_iff.2 hall
  rw [clip, Text.cutTo_of_length_le (by omega), htake, String.ofList_toList]

/-! ## The header -/

namespace Header

/-- The header with its texts as their fields keep them. -/
def clipped (h : Header) : Header :=
  { h with
    oldAuthor := clip 48 h.oldAuthor
    oldDescription := clip 80 h.oldDescription
    romName := clip 32 h.romName
    plugins :=
      { video := clip 64 h.plugins.video
        audio := clip 64 h.plugins.audio
        input := clip 64 h.plugins.input
        rsp := clip 64 h.plugins.rsp }
    author := clip 222 h.author
    description := clip 256 h.description }

/-- The header as it is read back. -/
def readBack (h : Header) : Header := Member.copy members h.clipped {}

theorem members_restoredAs (h : Header) : Member.RestoredAs members h h.clipped := by
  have hu8 (v : UInt8) := Layout.u8_readsAs v
  have hu16 (v : UInt16) := Layout.u16_readsAs v
  have hu32 (v : UInt32) := Layout.u32_readsAs v
  have hreserved (n : Nat) := Layout.region_readsAs n ByteArray.empty
  have htext {width : Nat} (hw : 0 < width) (text : String) := textField_readsAs hw text
  simp only [Member.RestoredAs, members, List.forall_mem_cons, List.not_mem_nil, false_implies,
    implies_true, and_true]
  exact ⟨⟨_, hu32 _, rfl⟩, ⟨_, hu32 _, rfl⟩, ⟨_, hu32 _, rfl⟩, ⟨_, hu32 _, rfl⟩, ⟨_, hu32 _, rfl⟩,
    ⟨_, hu8 _, rfl⟩, ⟨_, hu8 _, rfl⟩, ⟨_, hu8 _, rfl⟩, ⟨_, hu8 _, rfl⟩, ⟨_, hu32 _, rfl⟩,
    ⟨_, hu16 _, rfl⟩, ⟨_, hreserved _, rfl⟩, ⟨_, hu32 _, rfl⟩, ⟨_, Layout.block_readsAs _, rfl⟩,
    ⟨_, hu32 _, rfl⟩, ⟨_, hu32 _, rfl⟩, ⟨_, hreserved _, rfl⟩, ⟨_, htext (by decide) _, rfl⟩,
    ⟨_, htext (by decide) _, rfl⟩, ⟨_, htext (by decide) _, rfl⟩, ⟨_, hu32 _, rfl⟩,
    ⟨_, hu16 _, rfl⟩, ⟨_, hreserved _, rfl⟩, ⟨_, htext (by decide) _, rfl⟩,
    ⟨_, htext (by decide) _, rfl⟩, ⟨_, htext (by decide) _, rfl⟩, ⟨_, htext (by decide) _, rfl⟩,
    ⟨_, htext (by decide) _, rfl⟩, ⟨_, htext (by decide) _, rfl⟩⟩

theorem layout_readsAs (h : Header) : layout.ReadsAs h h.readBack :=
  Layout.record_restoredAs h.members_restoredAs {}

/-- The upper half of the rerecord count. -/
def upperHalf : Member Header :=
  ⟨.u32, fun h => (h.rerecordCount >>> 32).toUInt32, fun v h =>
    if h.extendedVersion = 0 then h
    else { h with rerecordCount := h.rerecordCount + v.toUInt64 * 0x100000000 }⟩

theorem members_eq : members = members.take 15 ++ upperHalf :: members.drop 16 := rfl

/-- The members in front of the upper half of the rerecord count. -/
theorem copy_front (h : Header) : Member.copy (members.take 15) h {} =
    { version := h.version
      uid := h.uid
      lengthVis := h.lengthVis
      rerecordCount := h.rerecordCount.toUInt32.toUInt64
      visPerSecond := h.visPerSecond
      numControllers := h.numControllers
      extendedVersion := h.extendedVersion
      extendedFlags := h.extendedFlags
      lengthSamples := h.lengthSamples
      startFlags := h.startFlags
      controllerFlags := h.controllerFlags
      authorshipTag := h.authorshipTag
      bruteforceExtraData := h.bruteforceExtraData } := rfl

/-- The members behind it. -/
theorem copy_back (h target : Header) : Member.copy (members.drop 16) h target =
    { target with
      oldAuthor := h.oldAuthor
      oldDescription := h.oldDescription
      romName := h.romName
      romCrc1 := h.romCrc1
      romCountry := h.romCountry
      plugins := h.plugins
      author := h.author
      description := h.description } := rfl

theorem halves_eq (n : UInt64) :
    n.toUInt32.toUInt64 + (n >>> 32).toUInt32.toUInt64 * 0x100000000 = n := by
  have hn := n.toNat_lt
  apply UInt64.toNat.inj
  simp only [UInt64.toNat_add, UInt64.toNat_mul, UInt32.toNat_toUInt64, UInt64.toNat_toUInt32,
    UInt64.toNat_shiftRight, UInt64.reduceToNat, Nat.reduceMod, Nat.shiftRight_eq_div_pow]
  omega

/-- A header reads back with its texts clipped, and the lower half of its rerecord count if it has
no place for the upper one. -/
theorem readBack_eq (h : Header) : h.readBack =
    { h.clipped with
      rerecordCount :=
        if h.extendedVersion = 0 then h.rerecordCount.toUInt32.toUInt64 else h.rerecordCount } := by
  -- The upper half is read where the lower one is known, so the members go in three parts.
  have hcopy : h.readBack = Member.copy (members.drop 16) h.clipped
      (upperHalf.set (upperHalf.get h.clipped) (Member.copy (members.take 15) h.clipped {})) := by
    rw [readBack, Member.copy, members_eq, List.foldl_append]
    rfl
  have hclip : h.clipped.rerecordCount = h.rerecordCount := rfl
  have hversion : h.clipped.extendedVersion = h.extendedVersion := rfl
  rw [hcopy, copy_front]
  simp only [upperHalf, hclip, hversion, halves_eq]
  split
  · rw [copy_back]
  · rw [copy_back]

theorem bytes_eq (h : Header) : layout.bytes h = Layout.u32.bytes magic ++
    (Layout.u32.bytes h.version ++ Member.putAll (members.drop 2) h ByteArray.empty) := by
  have hall : Member.RestoredAs (.fixed .u32 magic ::
      ⟨.u32, (·.version), fun v h => { h with version := v }⟩ :: members.drop 2) h h.clipped :=
    h.members_restoredAs
  have htail : Member.RestoredAs (⟨.u32, (·.version), fun v h => { h with version := v }⟩ ::
      members.drop 2) h h.clipped := fun m hm => hall m (.tail _ hm)
  exact hall.putAll_cons.trans (congrArg (Layout.u32.bytes magic ++ ·) htail.putAll_cons)

/-- A header is read from its bytes, whatever follows. -/
theorem ofBytes_append {h : Header} (hv : h.version = Movie.version) (rest : ByteArray) :
    ofBytes (layout.bytes h ++ rest) = .ok h.readBack := by
  have hread := layout_readsAs h
  have hsize : (layout.bytes h).size = size := hread.size_bytes
  have hmagic : Layout.u32.get (layout.bytes h ++ rest) 0 = magic := by
    rw [bytes_eq, ByteArray.append_assoc,
      ← ByteArray.empty_append (b := Layout.u32.bytes magic ++ _)]
    exact (Layout.u32_readsAs magic).get_bytes ByteArray.empty _
  have hversion : Layout.u32.get (layout.bytes h ++ rest) 4 = h.version := by
    rw [bytes_eq, ByteArray.append_assoc, ByteArray.append_assoc]
    exact (Layout.u32_readsAs h.version).get_bytes (Layout.u32.bytes magic) _
  have hget : layout.get (layout.bytes h ++ rest) 0 = h.readBack := by
    rw [← ByteArray.empty_append (b := layout.bytes h ++ rest)]
    exact hread.get_bytes ByteArray.empty rest
  rw [ofBytes, if_neg (by rw [ByteArray.size_append]; omega), hmagic, if_neg (by simp), hversion]
  simp only [hv, ne_eq, not_true_eq_false, ↓reduceIte, hget]

theorem version_get (data : ByteArray) :
    (layout.get data 0).version = Layout.u32.get data 4 := by
  have hrest : ∀ m ∈ members.drop 2, ∀ v h, (m.set v h).version = h.version := by
    simp [members, Member.fixed, Member.reserved, apply_ite version]
  exact Member.getAll_keeps version hrest { version := Layout.u32.get data 4 } data 8

theorem ofBytes_eq_ok {data : ByteArray} {h : Header} (ho : ofBytes data = .ok h) :
    Layout.u32.get data 4 = Movie.version ∧ h = layout.get data 0 := by
  unfold ofBytes at ho
  split at ho
  · cases ho
  · split at ho
    · cases ho
    · simp only at ho
      split at ho
      · cases ho
      · next hv => exact ⟨not_not.1 hv, (Except.ok.inj ho).symm⟩

/-- Only headers of the one version are read. -/
theorem version_of_ofBytes {data : ByteArray} {h : Header} (ho : ofBytes data = .ok h) :
    h.version = Movie.version := by
  obtain ⟨hv, rfl⟩ := ofBytes_eq_ok ho
  rw [version_get, hv]

end Header

/-! ## Recordings -/

namespace Recording

/-- What is read behind a header: the samples that it counts, which must be there. -/
theorem ofBytes_of_header {data : ByteArray} {header : Header}
    (h : Header.ofBytes data = .ok header) : ofBytes data =
      let stop := Header.size + header.lengthSamples.toNat * Sample.size
      if data.size < stop then .error .truncated
      else .ok ⟨header, Sample.unpack (data.extract Header.size stop)⟩ := by
  rw [ofBytes, h]
  rfl

theorem ofBytes_eq_ok {data : ByteArray} {r : Recording} (h : ofBytes data = .ok r) :
    Header.ofBytes data = .ok r.header ∧
      Header.size + r.header.lengthSamples.toNat * Sample.size ≤ data.size := by
  cases hheader : Header.ofBytes data with
  | error e => rw [ofBytes, hheader] at h; cases h
  | ok header =>
    rw [ofBytes_of_header hheader] at h
    simp only at h
    split at h
    · cases h
    · next hsize =>
      cases h
      exact ⟨rfl, Nat.not_lt.1 hsize⟩

theorem version_of_ofBytes {data : ByteArray} {r : Recording} (h : ofBytes data = .ok r) :
    r.header.version = Movie.version := Header.version_of_ofBytes (ofBytes_eq_ok h).1

/-- A header is read with what follows it, if that has room for the samples that it counts. -/
theorem ofBytes_append {h : Header} (hv : h.version = Movie.version) {rest : ByteArray}
    (hsize : h.lengthSamples.toNat * Sample.size ≤ rest.size) :
    ∃ inputs, inputs.size = h.lengthSamples.toNat ∧
      ofBytes (Header.layout.bytes h ++ rest) = .ok ⟨h.readBack, inputs⟩ := by
  have hcount : h.readBack.lengthSamples = h.lengthSamples := by rw [Header.readBack_eq]; rfl
  have hlength : (Header.layout.bytes h).size = Header.size :=
    (Header.layout_readsAs h).size_bytes
  have hroom : ¬(Header.layout.bytes h ++ rest).size <
      Header.size + h.lengthSamples.toNat * Sample.size := by
    rw [ByteArray.size_append]
    omega
  rw [ofBytes_of_header (Header.ofBytes_append hv rest), hcount]
  simp only
  rw [if_neg hroom]
  refine ⟨_, ?_, rfl⟩
  rw [Sample.unpack, Array.size_ofFn, ByteArray.size_extract, Nat.min_eq_left (Nat.not_lt.1 hroom),
    Nat.add_sub_cancel_left]
  exact Nat.mul_div_cancel _ (by decide)

theorem toBytes_eq (r : Recording) :
    r.toBytes = Header.layout.bytes r.header ++ Sample.putAll r.inputs ByteArray.empty := by
  rw [toBytes, Sample.putAll_eq]
  rfl

/-- A recording reads back with its header as far as it has room, and with as many samples as are
left of its number in 32 bits. -/
theorem ofBytes_toBytes_header {r : Recording} (hv : r.header.version = Movie.version) :
    ∃ inputs, inputs.size = r.inputs.size % UInt32.size ∧
      ofBytes r.counted.toBytes = .ok ⟨r.counted.header.readBack, inputs⟩ := by
  have hsize : r.counted.header.lengthSamples.toNat = r.inputs.size % UInt32.size :=
    UInt32.toNat_ofNat'
  have hcount : r.counted.header.lengthSamples.toNat ≤ r.inputs.size :=
    hsize.trans_le (Nat.mod_le _ _)
  rw [toBytes_eq, ← hsize]
  refine ofBytes_append (h := r.counted.header) hv ?_
  rw [Sample.size_putAll]
  exact Nat.mul_le_mul_right _ hcount

/-- **A recording reads back from its bytes**: all of its samples, if the format can count them, and
its header as far as it has room. -/
theorem ofBytes_toBytes {r : Recording} (hv : r.header.version = Movie.version)
    (hs : r.inputs.size < UInt32.size) :
    ofBytes r.counted.toBytes = .ok ⟨r.counted.header.readBack, r.inputs⟩ := by
  have hcount : r.counted.header.readBack.lengthSamples.toNat = r.inputs.size := by
    rw [Header.readBack_eq]
    exact UInt32.toNat_ofNat_of_lt' hs
  have hv : r.counted.header.version = Movie.version := hv
  have hheader : (Header.layout.bytes r.counted.header).size = Header.size :=
    (Header.layout_readsAs r.counted.header).size_bytes
  have hsamples := Sample.size_putAll r.inputs
  have hextract := Wire.Layout.extract_middle hsamples
    (Header.layout.bytes r.counted.header) ByteArray.empty
  rw [ByteArray.append_empty, hheader] at hextract
  rw [toBytes_eq, ofBytes, Header.ofBytes_append hv]
  simp only [bind, Except.bind, hcount]
  have hinputs : r.counted.inputs = r.inputs := rfl
  rw [hinputs, if_neg (by rw [ByteArray.size_append]; omega), hextract, Sample.unpack_putAll]

end Recording

end Movie

/-! ## Recordings in files -/

theorem eq_ok_of_mapError {ε ε' α : Type} {f : ε → ε'} {r : Except ε α} {a : α}
    (h : r.mapError f = .ok a) : r = .ok a := by
  cases r with
  | error e => cases h
  | ok b => cases h; rfl

/-- What reading a file gives; no file is changed. -/
theorem Movie.readFile_eq {D : Type} [Storage D] (ofBytes : ByteArray → Except Movie.Error α)
    (path : Storage.Pathname) (disk : D) :
    Movie.readFile (m := StateM D) ofBytes path disk =
      (match Storage.read path disk with
      | .error fault => .error (.io fault)
      | .ok data => ofBytes data, disk) := by
  have hread : Files.read (m := StateM D) path disk = (Storage.read path disk, disk) := rfl
  dsimp only [Movie.readFile, bind, StateT.bind]
  rw [hread]
  cases Storage.read path disk with
  | error fault => rfl
  | ok data => rfl

theorem Movie.readRecording_eq {D : Type} [Storage D] (path : Storage.Pathname) (disk : D) :
    Movie.readRecording (m := StateM D) path disk =
      (match Storage.read path disk with
      | .error fault => .error (.io fault)
      | .ok data => Movie.Recording.ofBytes data, disk) :=
  Movie.readFile_eq Movie.Recording.ofBytes path disk

theorem Movie.readRecording_unmoved {D : Type} [Storage D] (path : Storage.Pathname) (disk : D) :
    (Movie.readRecording (m := StateM D) path disk).2 = disk := by
  rw [Movie.readRecording_eq]

end Rewind
