import Rewind.Proofs.Checked.State
import Rewind.Proofs.Movie.HeaderEdits

/-!
Movie files read with every check, and what all checked readers together show. Main statement
(`readers_never_trap`): on data of any content and within the limit, each of them ends with a value
or with an error, the same as the reader without checks.
-/

namespace Rewind.Checked

open Machine Wire
open Storage (Pathname)

/-! ## Headers -/

/-- Takes text in a field of `width` bytes, up to the first zero byte. -/
def text (width : Nat) : Reader Savestate.Error String := do
  let raw ← .bytes width
  let shown ← .compute (slice raw 0 (raw.data.toList.findIdx (· == 0)))
  return String.ofList (Text.decodeLossy shown.data.toList)

/-- Takes the fields of a header behind its version. -/
def headerFields (version : UInt32) : Reader Savestate.Error Movie.Header := do
  let uid ← .item .u32
  let lengthVis ← .item .u32
  let rerecordLow ← .item .u32
  let visPerSecond ← .item .u8
  let numControllers ← .item .u8
  let extendedVersion ← .item .u8
  let extendedFlags ← .item .u8
  let lengthSamples ← .item .u32
  let startFlags ← .item .u16
  let _ ← Reader.bytes 2
  let controllerFlags ← .item .u32
  let authorshipTag ← .item (.block 4)
  let bruteforceExtraData ← .item .u32
  let rerecordHigh ← .item .u32
  let _ ← Reader.bytes 20
  let oldAuthor ← text 48
  let oldDescription ← text 80
  let romName ← text 32
  let romCrc1 ← .item .u32
  let romCountry ← .item .u16
  let _ ← Reader.bytes 56
  let video ← text 64
  let audio ← text 64
  let input ← text 64
  let rsp ← text 64
  let author ← text 222
  let description ← text 256
  let rerecordCount :=
    if extendedVersion = 0 then rerecordLow.toUInt64
    else rerecordLow.toUInt64 + rerecordHigh.toUInt64 * 0x100000000
  return {
    version, uid, lengthVis, rerecordCount, visPerSecond, numControllers, extendedVersion
    extendedFlags, lengthSamples, startFlags, controllerFlags, authorshipTag, bruteforceExtraData
    oldAuthor, oldDescription, romName, romCrc1, romCountry, author, description
    plugins := { video, audio, input, rsp } }

/-- A reader of savestate data as a part of the reader of a movie. -/
def withCause (reader : Reader Savestate.Error α) : Reader Movie.Error α :=
  fun p => Except.map (Except.mapError .state) (reader p)

/-- Takes a header. -/
def header : Reader Movie.Error Movie.Header := do
  let magic ← withCause (.item .u32)
  if magic ≠ Movie.magic then throw .badMagic
  else
    let version ← withCause (.item .u32)
    if version ≠ Movie.version then throw (.unsupportedVersion version)
    else withCause (headerFields version)

/-- The header at the front of `data`. -/
def headerOf (data : ByteArray) : Except Trap (Except Movie.Error Movie.Header) :=
  if data.size < Movie.Header.size then .ok (.error .truncated)
  else do header.runOn (← slice data 0 Movie.Header.size)

/-- The recording in `data`; how many bytes its samples take is computed from the header. -/
def recordingOf (data : ByteArray) : Except Trap (Except Movie.Error Movie.Recording) := do
  match ← headerOf data with
  | .error e => return .error e
  | .ok header =>
    let wanted ← mul header.lengthSamples.toNat Sample.size
    let body ← slice data Movie.Header.size data.size
    if body.size < wanted then return .error .truncated
    let inputs ← slice body 0 wanted
    return .ok ⟨header, Sample.unpack inputs⟩

section

open Reads

theorem text_reads (width : Nat) :
    Reads (text width) (Movie.textField width).size (Movie.textField width).get := by
  intro data stop pos hsize hstop hpos
  let raw := data.extract pos (pos + width)
  let shown := raw.data.toList.findIdx (· == 0)
  have hshown : shown ≤ raw.size := List.findIdx_le_length
  have htake : (raw.extract 0 shown).data.toList = raw.data.toList.takeWhile (· != 0) := by
    rw [List.takeWhile_eq_take_findIdx_not]
    simp [shown, bne]
  rw [text, Reader.bind_of_ok (bytes width _ _ _ hsize hstop hpos),
    Reader.bind_of_ok (Reader.compute_of_ok (slice_eq (Nat.zero_le _) hshown))]
  change _ = Except.ok (Except.ok (String.ofList (Text.decodeLossy
    (raw.data.toList.takeWhile (· != 0))), _))
  rw [← htake]
  rfl

theorem headerFields_reads (version : UInt32) :
    Reads (headerFields version) (Member.totalSize (Movie.Header.members.drop 2))
      (Member.getAll (Movie.Header.members.drop 2) { version }) := by
  unfold headerFields Movie.Header.members
  rw [List.drop_succ_cons, List.drop_succ_cons, List.drop_zero]
  have hword := item Layout.u32_local
  have hbyte := item Layout.u8_local
  refine cons hword fun uid => cons hword fun lengthVis => cons hword fun rerecordLow => ?_
  refine cons hbyte fun visPerSecond => cons hbyte fun numControllers => ?_
  refine cons hbyte fun extendedVersion => cons hbyte fun extendedFlags => ?_
  refine cons hword fun lengthSamples => cons (item Layout.u16_local) fun startFlags => ?_
  refine cons (region 2) fun _ => cons hword fun controllerFlags => ?_
  refine cons (item (Layout.block_local 4)) fun authorshipTag => ?_
  refine cons hword fun bruteforceExtraData => cons hword fun rerecordHigh => ?_
  refine cons (region 20) fun _ => cons (text_reads 48) fun oldAuthor => ?_
  refine cons (text_reads 80) fun oldDescription => cons (text_reads 32) fun romName => ?_
  refine cons hword fun romCrc1 => cons (item Layout.u16_local) fun romCountry => ?_
  refine cons (region 56) fun _ => ?_
  refine cons (text_reads 64) fun video => cons (text_reads 64) fun audio => ?_
  refine cons (text_reads 64) fun input => cons (text_reads 64) fun rsp => ?_
  refine cons (text_reads 222) fun author => cons (text_reads 256) fun description => nil ?_
  by_cases hv : extendedVersion = 0
  · simp only [Member.reserved, Member.fixed, hv, ↓reduceIte]
  · simp only [Member.reserved, Member.fixed, hv, ↓reduceIte]

end

theorem withCause_of_ok {reader : Reader Savestate.Error α} {p q : Place} {v : α}
    (h : reader p = .ok (.ok (v, q))) : withCause reader p = .ok (.ok (v, q)) := by
  rw [withCause, h]
  rfl

variable {data : ByteArray}

theorem headerOf_eq (h : data.size < limit) : headerOf data = .ok (Movie.Header.ofBytes data) := by
  unfold headerOf Movie.Header.ofBytes
  by_cases hsize : data.size < Movie.Header.size
  · rw [if_pos hsize, if_pos hsize]
  · have hle := Nat.not_lt.1 hsize
    let front := data.extract 0 Movie.Header.size
    have hmagic : withCause (.item Layout.u32) ⟨front, 0⟩ =
        .ok (.ok (Layout.u32.get data 0, ⟨front, 4⟩)) :=
      withCause_of_ok (Reads.item Layout.u32_local data _ 0 h hle (by decide))
    have hversion : withCause (.item Layout.u32) ⟨front, 4⟩ =
        .ok (.ok (Layout.u32.get data 4, ⟨front, 8⟩)) :=
      withCause_of_ok (Reads.item Layout.u32_local data _ 4 h hle (by decide))
    have hfields : withCause (headerFields Movie.version) ⟨front, 8⟩ =
        .ok (.ok (Member.getAll (Movie.Header.members.drop 2) { version := Movie.version } data 8,
          ⟨front, 1024⟩)) :=
      withCause_of_ok (headerFields_reads Movie.version data _ 8 h hle (by decide))
    rw [if_neg hsize, if_neg hsize, slice_eq (Nat.zero_le _) hle]
    change Except.map _ (header ⟨front, 0⟩) = _
    rw [header, Reader.bind_of_ok hmagic]
    by_cases hm : Layout.u32.get data 0 = Movie.magic
    · rw [if_neg (not_not.2 hm), if_neg (not_not.2 hm), Reader.bind_of_ok hversion]
      by_cases hv : Layout.u32.get data 4 = Movie.version
      · rw [if_neg (not_not.2 hv), if_neg (not_not.2 hv), hv, hfields]
        have hget : Movie.Header.layout.get data 0 =
            Member.getAll (Movie.Header.members.drop 2)
              { version := Layout.u32.get data 4 } data 8 := rfl
        rw [hget, hv]
        rfl
      · rw [if_pos hv, if_pos hv]
        rfl
    · rw [if_pos hm, if_pos hm]
      rfl

/-! ## Recordings -/

theorem recordingOf_eq (h : data.size < limit) :
    recordingOf data = .ok (Movie.Recording.ofBytes data) := by
  unfold recordingOf Movie.Recording.ofBytes
  rw [headerOf_eq h]
  cases hheader : Movie.Header.ofBytes data with
  | error e => rfl
  | ok header =>
    have hsize : Movie.Header.size ≤ data.size := (Movie.Header.front_of_ofBytes hheader).1
    have hlength := header.lengthSamples.toNat_lt
    have hsample : Sample.size = 4 := rfl
    have hword : UInt64.size = 2 ^ 64 := rfl
    let wanted := header.lengthSamples.toNat * Sample.size
    have hbody : (data.extract Movie.Header.size data.size).size =
        data.size - Movie.Header.size := by
      rw [ByteArray.size_extract, Nat.min_self]
    have hwanted : mul header.lengthSamples.toNat Sample.size = .ok wanted :=
      mul_eq (by rw [hsample]; omega)
    simp only [bind, Except.bind, hwanted, slice_eq hsize (Nat.le_refl _), hbody]
    by_cases hshort : data.size - Movie.Header.size < wanted
    · rw [if_pos hshort, if_pos (by omega)]
      rfl
    · have hinputs : slice (data.extract Movie.Header.size data.size) 0 wanted =
          .ok (data.extract Movie.Header.size (Movie.Header.size + wanted)) := by
        rw [slice_eq (Nat.zero_le _) (by omega), ByteArray.extract_extract, Nat.add_zero,
          Nat.min_eq_left (by omega)]
      rw [if_neg hshort, if_neg (by omega), hinputs]
      rfl

/-! ## Files -/

/-- The header in a file of which no more than the header's bytes are taken. -/
def frontHeaderOf (data : ByteArray) : Except Trap (Except Movie.Error Movie.Header) :=
  if data.size < Movie.Header.size then .ok (.error .truncated)
  else headerOf (data.extract 0 Movie.Header.size)

theorem frontHeaderOf_eq (h : data.size < limit) :
    frontHeaderOf data = .ok (Movie.Header.ofBytes data) := by
  unfold frontHeaderOf
  by_cases hsize : data.size < Movie.Header.size
  · rw [if_pos hsize, Movie.Header.ofBytes, if_pos hsize]
  · have hle := Nat.not_lt.1 hsize
    have hfront : (data.extract 0 Movie.Header.size).size = Movie.Header.size := by
      rw [ByteArray.size_extract, Nat.min_eq_left hle, Nat.sub_zero]
    have hwhole := ByteArray.extract_zero_size (b := data.extract 0 Movie.Header.size)
    rw [hfront] at hwhole
    rw [if_neg hsize, ← headerOf_eq h, headerOf, headerOf, if_neg hsize,
      if_neg (by rw [hfront]; exact Nat.lt_irrefl _), slice_eq (Nat.zero_le _) hle,
      slice_eq (Nat.zero_le _) (Nat.le_of_eq hfront.symm), hwhole]

variable {D : Type} [Storage D]

/-- Reads something out of a file. -/
def readFile (ofBytes : ByteArray → Except Trap (Except Movie.Error α)) (path : Pathname)
    (disk : D) : Except Trap (Except Movie.Error α) :=
  match Storage.read path disk with
  | .error fault => .ok (.error (.io fault))
  | .ok data => ofBytes data

/-- Reads a movie file. -/
def readRecording : Pathname → D → Except Trap (Except Movie.Error Movie.Recording) :=
  readFile recordingOf

/-- Reads the header of a movie file. -/
def readHeader : Pathname → D → Except Trap (Except Movie.Error Movie.Header) :=
  readFile frontHeaderOf

theorem readFile_eq {ofBytes : ByteArray → Except Trap (Except Movie.Error α)}
    {ofBytes' : ByteArray → Except Movie.Error α} {path : Pathname} {disk : D}
    (hread : Storage.read path disk = .ok data) (h : ofBytes data = .ok (ofBytes' data)) :
    readFile ofBytes path disk = .ok (Movie.readFile (m := StateM D) ofBytes' path disk).1 := by
  rw [Movie.readFile_eq, readFile, hread]
  exact h

/-- **Untrusted data never stops a reader dead.** Reading it with every check ends with a value or
an error, the same as without the checks. In particular the bytes of a screenshot whose sides are
not negative can always be counted. -/
theorem readers_never_trap {data : ByteArray} (h : data.size < 0x4000000000000000) :
    decode data = .ok (Savestate.decode data) ∧
      romHash data = .ok (Savestate.romHash data) ∧
      headerOf data = .ok (Movie.Header.ofBytes data) ∧
      (∀ (path : Pathname) (disk : D), Storage.read path disk = .ok data →
        readRecording path disk = .ok (Movie.readRecording (m := StateM D) path disk).1 ∧
        readHeader path disk = .ok (Movie.readHeader (m := StateM D) path disk).1) ∧
      ∀ width height : UInt32, width < 0x80000000 → height < 0x80000000 →
        Screenshot.byteCount? width height = some (width.toNat * height.toNat * 3) := by
  have hhash : Follows (.item Savestate.hashLayout) (.item Savestate.hashLayout) :=
    .item (Layout.block_local _) (by decide)
  exact ⟨state_follows.runOn h, hhash.runOn h, headerOf_eq h,
    fun path disk hread =>
      ⟨readFile_eq hread (recordingOf_eq h), readFile_eq hread (frontHeaderOf_eq h)⟩,
    fun width height => Screenshot.byteCount?_of_lt⟩

/-- A header without samples that claims as many as the format can count. -/
def overclaiming : ByteArray :=
  Movie.Header.layout.bytes { lengthSamples := 0xffffffff }

theorem size_overclaiming : overclaiming.size = 1024 :=
  (Movie.Header.layout_readsAs { lengthSamples := 0xffffffff }).size_bytes

theorem ofBytes_overclaiming : ∃ header, Movie.Header.ofBytes overclaiming = .ok header ∧
    header.lengthSamples = 0xffffffff := by
  let claimed : Movie.Header := { lengthSamples := 0xffffffff }
  have hread := Movie.Header.ofBytes_append (h := claimed) rfl ByteArray.empty
  rw [ByteArray.append_empty] at hread
  exact ⟨claimed.readBack, hread, by rw [Movie.Header.readBack_eq]; rfl⟩

theorem recording_overclaiming : Movie.Recording.ofBytes overclaiming = .error .truncated := by
  obtain ⟨header, hread, hlength⟩ := ofBytes_overclaiming
  have hsamples : header.lengthSamples.toNat = 0xffffffff := congrArg UInt32.toNat hlength
  have hsample : Sample.size = 4 := rfl
  have hheader : Movie.Header.size = 1024 := rfl
  unfold Movie.Recording.ofBytes
  rw [hread]
  simp only [bind, Except.bind]
  rw [hsamples, if_pos (by rw [size_overclaiming]; omega)]

/-- A file that claims four billion samples is refused, though its header is read. -/
theorem readers_never_trap_overclaiming :
    readRecording ⟨"run.m64"⟩ (Movie.oneFile overclaiming) = .ok (.error .truncated) ∧
      (∃ header, readHeader ⟨"run.m64"⟩ (Movie.oneFile overclaiming) = .ok (.ok header) ∧
        header.lengthSamples = 0xffffffff) ∧
      Screenshot.byteCount? 0x7fffffff 0x7fffffff = some 13835058042397261827 := by
  obtain ⟨-, -, -, hfiles, hpixels⟩ := readers_never_trap (D := Storage.Tree)
    (show overclaiming.size < 0x4000000000000000 by rw [size_overclaiming]; decide)
  obtain ⟨hrecording, hheader⟩ := hfiles ⟨"run.m64"⟩ _ (Movie.read_oneFile overclaiming)
  obtain ⟨header, hread, hlength⟩ := ofBytes_overclaiming
  have hlargest := hpixels 0x7fffffff 0x7fffffff (by decide) (by decide)
  simp only [UInt32.reduceToNat, Nat.reduceMul] at hlargest
  refine ⟨?_, ⟨header, ?_, hlength⟩, hlargest⟩
  · rw [hrecording, Movie.readRecording_eq, Movie.read_oneFile]
    simp only [recording_overclaiming]
  · rw [hheader, Movie.readHeader, Movie.readFile_eq, Movie.read_oneFile]
    simp only [hread]

end Rewind.Checked
