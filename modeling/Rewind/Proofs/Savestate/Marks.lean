import Rewind.Proofs.Savestate.Expressible

/-!
What the mark of an ended transfer changes about a savestate. It stands in the fixed block, and what
stands behind the block is read without a look back, so a marked savestate reads back as the
unmarked one of the same machine, or is refused with it (`decode_of_write_marked`).
-/

namespace Rewind.Savestate

open Machine Wire
open Reader (Blind Gives Takes)

/-! ## What stands behind the fixed block -/

theorem blind_word : Blind (.item Layout.u32) := .item Layout.u32_readsAs Layout.u32_lossless

theorem getEvents_blind (fuel : Nat) : Blind (getEvents fuel) := by
  induction fuel with
  | zero => exact .throw _
  | succ fuel ih =>
    refine blind_word.bind fun kind => ?_
    split
    · exact .pure _
    · exact blind_word.bind fun count => ih.map _

theorem getFreeze_blind : Blind Movie.Freeze.get :=
  blind_word.bind fun _ => blind_word.bind fun _ => blind_word.bind fun _ =>
    blind_word.bind fun _ => blind_word.bind fun _ => (Blind.bytes _).map _

theorem getMovie_blind : Blind getMovie := by
  refine blind_word.bind fun flag => ?_
  split
  · exact .pure _
  · exact getFreeze_blind.map _

theorem getExtent_blind (what : Malformation) : Blind (getExtent what) := by
  refine blind_word.bind fun n => ?_
  split
  · exact .pure _
  · exact .throw _

theorem getScreenshot_blind : Blind getScreenshot := by
  refine Blind.remaining.bind fun left => ?_
  split
  · exact .pure _
  refine (Blind.bytes _).bind fun tag => ?_
  split
  · exact .pure _
  refine (getExtent_blind _).bind fun width => (getExtent_blind _).bind fun height => ?_
  split
  · exact .throw _
  · exact (Blind.bytes _).map _

/-- Takes what stands behind the fixed block, and puts the machine together. -/
def getRest (romHash : Block romHashSize) (fixed : Snapshot) : Reader Decoded := do
  let manuf := fixed.regs.rdram.deviceManuf
  let events ← getEvents (eventScanLimit / 8)
  let movie ← getMovie
  let screenshot ← getScreenshot
  let snapshot := { fixed with
    romHash, movie, screenshot
    regs.rdram.deviceManuf := manuf &&& ~~~transferBit
    interrupts.events := events }
  return ⟨snapshot, manuf &&& transferBit != 0⟩

theorem getRest_blind (romHash : Block romHashSize) (fixed : Snapshot) :
    Blind (getRest romHash fixed) :=
  (getEvents_blind _).bind fun _ => getMovie_blind.bind fun _ => getScreenshot_blind.map _

/-- What is put together depends on the fixed block up to the register's bit. -/
theorem getRest_marked (romHash : Block romHashSize) (s : Snapshot) :
    getRest romHash (mark s) =
      (return { ← getRest romHash s with transferEnded := true }) := by
  have hmanuf : (mark s).regs.rdram.deviceManuf &&& ~~~transferBit =
      s.regs.rdram.deviceManuf &&& ~~~transferBit := Mask.or_clear _ _
  have hmarked : ((mark s).regs.rdram.deviceManuf &&& transferBit != 0) = true := by
    have hbit : (mark s).regs.rdram.deviceManuf &&& transferBit = transferBit :=
      Mask.or_and_self _ _
    rw [hbit]
    decide
  simp only [getRest, hmanuf, hmarked, bind_assoc, pure_bind]
  rfl

theorem getRest_gives (romHash : Block romHashSize) (fixed : Snapshot) :
    Gives (getRest romHash fixed) (·.transferEnded = fixed.marked) :=
  .after fun _ => .after fun _ => (Gives.trivial getScreenshot).map fun _ _ => rfl

/-! ## The whole savestate -/

theorem marked_finishTransfer (s : Snapshot) : (finishTransfer s).1.marked = s.marked := by
  unfold finishTransfer
  split <;> rfl

/-- What stands in front of the interrupts. -/
def frontBytes (romHash : Block romHashSize) (fixed : Snapshot) : ByteArray :=
  hashLayout.bytes romHash ++ fixedLayout.bytes fixed

section
variable (romHash : Block romHashSize) (fixed : Snapshot) (rest : ByteArray)

theorem size_frontBytes : (frontBytes romHash fixed).size = romHashSize + fixedBlockSize := by
  rw [frontBytes, ByteArray.size_append, hashLayout, (Layout.block_readsAs _).size_bytes,
    (fixedLayout_readsAs _).size_bytes, fixedLayout_size]
  rfl

/-- A savestate is read as its fixed block says, and then without a look back. -/
theorem decode_eq_getRest : decode (frontBytes romHash fixed ++ rest) =
    (·.1) <$>
      getRest romHash fixed.fitted.fixedPart (.between (frontBytes romHash fixed) rest) := by
  have hfixed := fixedLayout_readsAs fixed
  have hroom : fixedBlockSize ≤ (fixedLayout.bytes fixed ++ rest).size := by
    rw [ByteArray.size_append, hfixed.size_bytes, fixedLayout_size]
    exact Nat.le_add_right _ _
  have hstart : Cursor.start (frontBytes romHash fixed ++ rest) = .between ByteArray.empty
      (hashLayout.bytes romHash ++ (fixedLayout.bytes fixed ++ rest)) := by
    simp [Cursor.start, Cursor.between, frontBytes, ByteArray.append_assoc]
  have hrequire := (Takes.require hroom).bind_eq
    (fun _ => Reader.item fixedLayout >>= getRest romHash) (hashLayout.bytes romHash)
  rw [ByteArray.empty_append, ByteArray.append_empty] at hrequire
  have hget : get (.start (frontBytes romHash fixed ++ rest)) =
      getRest romHash fixed.fitted.fixedPart (.between (frontBytes romHash fixed) rest) := by
    rw [hstart]
    refine ((Takes.item (Layout.block_readsAs romHash) _).bind_eq _ ByteArray.empty).trans ?_
    rw [ByteArray.empty_append]
    exact hrequire.trans ((Takes.item hfixed rest).bind_eq _ _)
  rw [decode, Reader.runOn, hget]

/-- The mark changes what is said of the transfer, whatever stands behind the fixed block. -/
theorem decode_mark : decode (frontBytes romHash (mark fixed) ++ rest) =
    (decode (frontBytes romHash fixed ++ rest)).map fun decoded =>
      { decoded with transferEnded := true } := by
  have hsize : (frontBytes romHash (mark fixed)).size = (frontBytes romHash fixed).size :=
    (size_frontBytes _ _).trans (size_frontBytes _ _).symm
  have hfixed : (mark fixed).fitted.fixedPart = mark fixed.fitted.fixedPart := rfl
  have hmap (c : Cursor) :
      (do return { ← getRest romHash fixed.fitted.fixedPart with transferEnded := true } :
        Reader Decoded) c = getRest romHash fixed.fitted.fixedPart c >>= fun (decoded, c) =>
          .ok ({ decoded with transferEnded := true }, c) := rfl
  rw [decode_eq_getRest, decode_eq_getRest, hfixed, getRest_marked, hmap]
  obtain ⟨e, he, he'⟩ | ⟨decoded, taken, left, hd, hd'⟩ :=
    getRest_blind romHash fixed.fitted.fixedPart _ _ rest hsize
  · rw [he, he']
    rfl
  · rw [hd, hd']
    rfl

/-- What is said of the transfer is the register's bit. -/
theorem transferEnded_of_decode {decoded : Decoded}
    (h : decode (frontBytes romHash fixed ++ rest) = .ok decoded) :
    decoded.transferEnded = fixed.marked := by
  rw [decode_eq_getRest] at h
  cases hr : getRest romHash fixed.fitted.fixedPart (.between (frontBytes romHash fixed) rest) with
  | error e => rw [hr] at h; cases h
  | ok p =>
    rw [hr] at h
    cases h
    exact getRest_gives romHash fixed.fitted.fixedPart _ p.1 p.2 hr

end

/-- A savestate reads back as the unmarked one of the same machine does, but for what it says of the
transfer; the unmarked one says what the machine's own register does. -/
theorem decode_of_write_marked {s : Snapshot} {marked : Bool} {bytes : ByteArray}
    (h : write s marked = .ok bytes) : ∃ plain, write s false = .ok plain ∧
      (decode bytes = (decode plain).map fun decoded =>
        { decoded with transferEnded := marked || decoded.transferEnded }) ∧
      ∀ decoded, decode plain = .ok decoded → decoded.transferEnded = s.marked := by
  let rest := eventBytes s.interrupts.events ++
    (movieBytes s.movie ++ screenshotBytes (s.screenshot.map Screenshot.fitted))
  have hsplit {marked : Bool} {bytes : ByteArray} (h : write s marked = .ok bytes) :
      bytes = frontBytes s.romHash (if marked then mark s else s) ++ rest := by
    rw [write_eq_ok h]
    simp only [machineBytes, frontBytes, rest, ByteArray.append_assoc]
  obtain ⟨plain, hplain⟩ := (exists_write_iff false).2 ((exists_write_iff marked).1 ⟨bytes, h⟩)
  refine ⟨plain, hplain, ?_, fun decoded hdecoded => ?_⟩
  · cases marked with
    | false =>
      obtain rfl : plain = bytes := Except.ok.inj (hplain.symm.trans h)
      cases hd : decode plain <;> simp [Except.map]
    | true =>
      rw [hsplit h, hsplit hplain]
      exact decode_mark s.romHash s rest
  · rw [hsplit hplain] at hdecoded
    exact transferEnded_of_decode s.romHash s rest hdecoded

/-- What a savestate says of the transfer: that it was ended, or that the register held the bit. -/
theorem transferEnded_of_decode_encode {s : Snapshot} {encoded : Encoded}
    (h : encode s = .ok encoded) {decoded : Decoded} (hd : decode encoded.bytes = .ok decoded) :
    decoded.transferEnded = (encoded.transferEnded || s.marked) := by
  obtain ⟨hfinish, hwrite⟩ := encode_eq_ok_iff.1 h
  obtain ⟨plain, -, hdecode, hmarked⟩ := decode_of_write_marked hwrite
  have hregister : encoded.snapshot.marked = s.marked := by
    have hm := marked_finishTransfer s
    rwa [hfinish] at hm
  rw [hd] at hdecode
  cases hp : decode plain with
  | error e => rw [hp] at hdecode; cases hdecode
  | ok decoded' =>
    rw [hp] at hdecode
    cases hdecode
    simp only [hmarked decoded' hp, hregister]

end Rewind.Savestate
