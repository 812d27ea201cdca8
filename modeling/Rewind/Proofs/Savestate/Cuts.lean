import Rewind.Proofs.Savestate.RoundTrip

/-!
Savestates that were cut or extended. A reader that takes `w` needs all of it if in front of any
part of `w` it is refused for want of more (`Reader.Needs`), and sequencing such readers needs what
they need together. Every part of a savestate is needed but the screenshot as a whole, so a cut one
is refused unless the cut hides that there was a screenshot, and what follows a savestate changes
nothing unless it announces one (`decode_cut_or_extended`).
-/

namespace Rewind.Savestate

open Machine Wire

theorem cut_inside {w : ByteArray} {n : Nat} (h : n ≤ w.size) (w' : ByteArray) :
    (w ++ w').extract 0 n = w.extract 0 n := by
  rw [ByteArray.extract_append, Nat.sub_eq_zero_of_le h, Nat.zero_sub, ByteArray.extract_same,
    ByteArray.append_empty]

theorem cut_behind (w w' : ByteArray) (n : Nat) :
    (w ++ w').extract 0 (w.size + n) = w ++ w'.extract 0 n := by
  have he := ByteArray.extract_append_size_add (a := w) (b := w') (i := 0) (j := n)
  rw [Nat.add_zero] at he
  rw [ByteArray.extract_eq_extract_append_extract w.size (Nat.zero_le _) (Nat.le_add_right _ _),
    ByteArray.extract_append_eq_left rfl, he]

namespace Reader

/-! ## Too little -/

/-- In front of `p` at the end of the data, the reader is refused because more is needed. -/
def Lacks (reader : Reader α) (p : ByteArray) : Prop :=
  ∀ front, ∃ needed, front.size + p.size < needed ∧
    reader (.between front p) = .error (.truncated needed (front.size + p.size))

/-- The reader does with nothing less than `w`. -/
def Needs (reader : Reader α) (w : ByteArray) : Prop :=
  ∀ n < w.size, Lacks reader (w.extract 0 n)

theorem Lacks.bind {reader : Reader α} {p : ByteArray} (h : Lacks reader p)
    (next : α → Reader β) : Lacks (reader >>= next) p := by
  intro front
  obtain ⟨needed, hlt, he⟩ := h front
  have hb : (reader >>= next) (.between front p) =
      reader (.between front p) >>= fun (x, c) => next x c := rfl
  exact ⟨needed, hlt, by rw [hb, he]; rfl⟩

/-- A reader that takes what it needs, in front of one that lacks something. -/
theorem Lacks.after {reader : Reader α} {next : α → Reader β} {w p : ByteArray} {a : α}
    (h : Takes reader w p a) (h' : Lacks (next a) p) : Lacks (reader >>= next) (w ++ p) := by
  intro front
  obtain ⟨needed, hlt, he⟩ := h' (front ++ w)
  have hb : (reader >>= next) (.between front (w ++ p)) =
      reader (.between front (w ++ p)) >>= fun (x, c) => next x c := rfl
  rw [ByteArray.size_append, Nat.add_assoc, ← ByteArray.size_append] at hlt he
  exact ⟨needed, hlt, by rw [hb, h front]; exact he⟩

theorem Lacks.after_nothing {reader : Reader α} {next : α → Reader β} {p : ByteArray} {a : α}
    (h : Takes reader ByteArray.empty p a) (h' : Lacks (next a) p) : Lacks (reader >>= next) p := by
  have hb := after h h'
  rwa [ByteArray.empty_append] at hb

theorem Lacks.advance {p : ByteArray} {n : Nat} (h : p.size < n) : Lacks (advance n) p := by
  intro front
  exact ⟨front.size + n, Nat.add_lt_add_left h _, advance_of_lt h front⟩

theorem Lacks.require {p : ByteArray} {n : Nat} (h : p.size < n) : Lacks (require n) p := by
  intro front
  refine ⟨front.size + n, Nat.add_lt_add_left h _, ?_⟩
  have hle : ¬front.size + n ≤ front.size + p.size := by omega
  simp [Reader.require, Cursor.between, hle]

theorem Lacks.runOn {reader : Reader α} {p : ByteArray} (h : Lacks reader p) :
    ∃ needed > p.size, reader.runOn p = .error (.truncated needed p.size) := by
  obtain ⟨needed, hlt, he⟩ := h ByteArray.empty
  rw [ByteArray.size_empty, Nat.zero_add] at hlt he
  have hs : Cursor.start p = .between ByteArray.empty p := by simp [Cursor.start, Cursor.between]
  exact ⟨needed, hlt, by rw [Reader.runOn, hs, he]; rfl⟩

/-! ## What readers need -/

theorem size_cut {w : ByteArray} {n : Nat} (h : n < w.size) : (w.extract 0 n).size = n := by
  rw [ByteArray.size_extract]; omega

theorem Needs.item {layout : Layout α} {w : ByteArray} (h : w.size = layout.size) :
    Needs (item layout) w :=
  fun _ hn => (Lacks.advance (by rw [size_cut hn, ← h]; exact hn)).bind _

theorem Needs.bytes {w : ByteArray} {n : Nat} (h : w.size = n) : Needs (bytes n) w :=
  fun _ hk => (Lacks.advance (by rw [size_cut hk, ← h]; exact hk)).bind _

/-- A cut behind the first part leaves the first part and a cut second one. -/
theorem Needs.bind {reader : Reader α} {next : α → Reader β} {w w' : ByteArray} {a : α}
    (ht : ∀ rest, Takes reader w rest a) (h : Needs reader w) (h' : Needs (next a) w') :
    Needs (reader >>= next) (w ++ w') := by
  intro n hn
  rw [ByteArray.size_append] at hn
  by_cases hw : n < w.size
  · rw [cut_inside (Nat.le_of_lt hw)]
    exact (h n hw).bind next
  · obtain ⟨k, rfl⟩ := Nat.exists_eq_add_of_le (Nat.le_of_not_lt hw)
    rw [cut_behind]
    exact Lacks.after (ht _) (h' k (Nat.lt_of_add_lt_add_left hn))

theorem Needs.map {reader : Reader α} {w : ByteArray} (h : Needs reader w) (f : α → β) :
    Needs (do return f (← reader)) w :=
  fun n hn => (h n hn).bind _

/-- Asking early for what is taken later needs no more. -/
theorem Needs.require {next : Unit → Reader α} {w : ByteArray} (h : Needs (next ()) w) (n : Nat) :
    Needs (require n >>= next) w := by
  intro k hk
  by_cases hn : (w.extract 0 k).size < n
  · exact (Lacks.require hn).bind next
  · exact Lacks.after_nothing (Takes.require (Nat.le_of_not_lt hn)) (h k hk)

end Reader

open Reader (Lacks Needs Takes)

/-! ## What a savestate needs -/

private theorem needs_word (v : UInt32) : Needs (.item Layout.u32) (Layout.u32.bytes v) :=
  .item (Layout.u32_readsAs v).size_bytes

private theorem takes_word (v : UInt32) (rest : ByteArray) :
    Takes (.item Layout.u32) (Layout.u32.bytes v) rest v :=
  .item (Layout.u32_readsAs v) rest

theorem getEvents_needs {events : List Interrupt} {fuel : Nat} (hl : events.length < fuel)
    (h : ∀ e ∈ events, e.kind ≠ eventTerminator) : Needs (getEvents fuel) (eventBytes events) := by
  induction events generalizing fuel with
  | nil =>
    cases fuel with
    | zero => cases hl
    | succ fuel => exact fun n hn => (needs_word _ n hn).bind _
  | cons e events ih =>
    cases fuel with
    | zero => cases hl
    | succ fuel =>
      have ih := ih (Nat.lt_of_succ_lt_succ hl) fun e he => h e (.tail _ he)
      refine .bind (takes_word _) (needs_word _) ?_
      rw [if_neg (h e (.head _))]
      exact .bind (takes_word _) (needs_word _) (ih.map _)

theorem getFreeze_needs {f : Movie.Freeze} (h : f.inputs.size = f.lengthSamples.toNat + 1) :
    Needs Movie.Freeze.get f.bytes := by
  have hs : (Sample.putAll f.inputs ByteArray.empty).size =
      (f.lengthSamples.toNat + 1) * Sample.size := by
    rw [Sample.size_putAll, h]
  have hw (v : UInt32) {next : UInt32 → Reader Movie.Freeze} {w' : ByteArray}
      (h' : Needs (next v) w') := Needs.bind (takes_word v) (needs_word v) h'
  exact hw _ <| hw _ <| hw _ <| hw _ <| hw _ <| (Needs.bytes hs).map _

theorem getMovie_needs {movie : Option Movie.Freeze}
    (h : ∀ f ∈ movie, f.inputs.size = f.lengthSamples.toNat + 1) :
    Needs getMovie (movieBytes movie) := by
  cases movie with
  | none => exact fun n hn => (needs_word 0 n hn).bind _
  | some freeze =>
    exact .bind (takes_word 1) (needs_word 1) ((getFreeze_needs (h freeze rfl)).map _)

theorem getMachine_needs {s : Snapshot} (h : s.WellFormed)
    (hl : s.interrupts.events.length ≤ maxEvents) (marked : Bool) :
    Needs getMachine (machineBytes s marked) := by
  have hfuel : s.interrupts.events.length < eventScanLimit / 8 :=
    Nat.lt_of_le_of_lt hl (by decide)
  have hhash := Layout.block_readsAs s.romHash
  have hfixed := fixedLayout_readsAs (if marked then mark s else s)
  refine .bind (.item hhash) (.item hhash.size_bytes) <| .require ?_ _
  refine .bind (.item hfixed) (.item hfixed.size_bytes) ?_
  exact .bind (getEvents_takes hfuel h.events) (getEvents_needs hfuel h.events)
    ((getMovie_needs h.movie).map _)

theorem getExtent_needs (what : Malformation) (n : UInt32) :
    Needs (getExtent what) (Layout.u32.bytes n) :=
  fun k hk => (needs_word n k hk).bind _

/-- A screenshot that is announced is needed as a whole. -/
theorem getScreenshot_lacks {shot : Screenshot} (hw : shot.width < 0x80000000)
    (hh : shot.height < 0x80000000)
    (hs : shot.rgb.size = 3 * shot.width.toNat * shot.height.toNat) {n : Nat}
    (htag : screenshotTag.size ≤ n) (hn : n < (screenshotBytes (some shot)).size) :
    Lacks getScreenshot ((screenshotBytes (some shot)).extract 0 n) := by
  obtain ⟨k, rfl⟩ := Nat.exists_eq_add_of_le htag
  rw [screenshotBytes] at hn ⊢
  rw [ByteArray.size_append] at hn
  rw [cut_behind]
  refine Lacks.after_nothing (.remaining _) ?_
  rw [if_neg (by rw [ByteArray.size_append]; omega)]
  refine Lacks.after (.bytes rfl _) ?_
  rw [if_neg (fun hne => hne rfl)]
  refine Needs.bind (getExtent_takes hw _) (getExtent_needs _ _) ?_ k
    (Nat.lt_of_add_lt_add_left hn)
  refine .bind (getExtent_takes hh _) (getExtent_needs _ _) ?_
  simp only [Screenshot.byteCount?_eq hw hh hs]
  exact (Needs.bytes rfl).map _

/-! ## Behind the machine -/

/-- What does not announce a screenshot is passed over. -/
theorem getScreenshot_takes_unknown {tag : ByteArray} (hs : tag.size = screenshotTag.size)
    (h : tag ≠ screenshotTag) (rest : ByteArray) : Takes getScreenshot tag rest none := by
  refine (Takes.remaining _).bind_nothing ?_
  rw [if_neg (by rw [ByteArray.size_append]; omega)]
  refine (Takes.bytes hs _).bind_last ?_
  rw [if_pos h]
  exact .pure none rest

section
variable {s : Snapshot} (h : s.WellFormed) (hl : s.interrupts.events.length ≤ maxEvents)
  (marked : Bool)
include h hl

theorem decode_of_takes {w rest : ByteArray} {screenshot : Option Screenshot}
    (ht : Takes getScreenshot w rest screenshot) :
    decode (machineBytes s marked ++ (w ++ rest)) = .ok ⟨{ s with screenshot }, marked⟩ := by
  have hg : Takes get (machineBytes s marked ++ w) rest ⟨{ s with screenshot }, marked⟩ := by
    rw [get_eq]
    exact (getMachine_takes h hl marked _).bind (ht.map rfl)
  rw [← ByteArray.append_assoc]
  exact hg.runOn

theorem decode_of_lacks {p : ByteArray} (hp : Lacks getScreenshot p) :
    ∃ needed > (machineBytes s marked ++ p).size, decode (machineBytes s marked ++ p) =
      .error (.truncated needed (machineBytes s marked ++ p).size) := by
  rw [decode, get_eq]
  exact (Lacks.after (getMachine_takes h hl marked _) (hp.bind _)).runOn

theorem decode_cut_machine {n : Nat} (hn : n < (machineBytes s marked).size) :
    ∃ needed > n, decode ((machineBytes s marked).extract 0 n) = .error (.truncated needed n) := by
  have hc := ((getMachine_needs h hl marked n hn).bind fun decoded => do
    return { decoded with snapshot.screenshot := ← getScreenshot }).runOn
  rw [← get_eq] at hc
  rwa [Reader.size_cut hn] at hc

/-- A cut is noticed, unless it leaves too little of a screenshot to know that there was one. -/
theorem decode_cut {n : Nat} (hn : n < (stateBytes s marked).size) :
    let start := (machineBytes s marked).size
    if s.screenshot.isSome ∧ start ≤ n ∧ n < start + screenshotTag.size then
      decode ((stateBytes s marked).extract 0 n) = .ok ⟨{ s with screenshot := none }, marked⟩
    else
      ∃ needed > n, decode ((stateBytes s marked).extract 0 n) = .error (.truncated needed n) := by
  intro start
  rw [stateBytes_eq] at hn ⊢
  by_cases hm : n < start
  · rw [if_neg (by omega), cut_inside (Nat.le_of_lt hm)]
    exact decode_cut_machine h hl marked hm
  · obtain ⟨k, rfl⟩ := Nat.exists_eq_add_of_le (Nat.le_of_not_lt hm)
    rw [ByteArray.size_append] at hn
    have hk : k < (screenshotBytes s.screenshot).size := Nat.lt_of_add_lt_add_left hn
    have hs : (machineBytes s marked ++ (screenshotBytes s.screenshot).extract 0 k).size =
        start + k := by
      rw [ByteArray.size_append, Reader.size_cut hk]
    rw [cut_behind]
    cases hshot : s.screenshot with
    | none => rw [hshot] at hk; cases hk
    | some shot =>
      obtain ⟨hw, hh, hrgb⟩ := h.screenshot shot hshot
      rw [hshot] at hk hs
      by_cases htag : k < screenshotTag.size
      · rw [if_pos ⟨rfl, by omega, by omega⟩]
        have ht : Takes getScreenshot (screenshotBytes none) _ none :=
          getScreenshot_takes (by rintro _ ⟨⟩) fun _ => by rwa [Reader.size_cut hk]
        have hd := decode_of_takes h hl marked ht
        rwa [screenshotBytes, ByteArray.empty_append] at hd
      · rw [if_neg (by omega)]
        have hlacks := getScreenshot_lacks hw hh hrgb (Nat.le_of_not_lt htag) hk
        have hd := decode_of_lacks h hl marked hlacks
        rwa [hs] at hd

/-- What follows a savestate is passed over, unless it announces the screenshot that is lacking. -/
theorem decode_extended {more : ByteArray} (hm : s.screenshot.isSome ∨
      more.size < screenshotTag.size ∨ more.extract 0 screenshotTag.size ≠ screenshotTag) :
    decode (stateBytes s marked ++ more) = .ok ⟨s, marked⟩ := by
  by_cases hr : s.screenshot = none → more.size < screenshotTag.size
  · exact (get_takes h hl marked hr).runOn
  · obtain ⟨hnone, hle⟩ := Classical.not_imp.1 hr
    have htag := (hm.resolve_left (by rw [hnone]; decide)).resolve_left hle
    have hle := Nat.le_of_not_lt hle
    have hs : (more.extract 0 screenshotTag.size).size = screenshotTag.size := by
      rw [ByteArray.size_extract]; omega
    have hd := decode_of_takes h hl marked (getScreenshot_takes_unknown hs htag
      (more.extract screenshotTag.size more.size))
    rw [← ByteArray.extract_eq_extract_append_extract _ (Nat.zero_le _) hle,
      ByteArray.extract_zero_size] at hd
    rw [stateBytes_eq, hnone, screenshotBytes, ByteArray.append_empty, hd, ← hnone]

end

/-- **A savestate that was cut or extended is not misread.** A cut one is refused as too short,
except that it is read without its screenshot when the cut leaves less of it than its tag. What
follows it changes nothing, unless it announces the screenshot that the savestate does not have. -/
theorem decode_cut_or_extended {s : Snapshot} (h : s.WellFormed) {encoded : Encoded}
    (he : encode s = .ok encoded) :
    let decoded : Decoded := ⟨encoded.snapshot, encoded.transferEnded⟩
    decode encoded.bytes = .ok decoded ∧
      (∃ front, encoded.bytes = front ++ screenshotBytes s.screenshot ∧
        ∀ n < encoded.bytes.size,
          if s.screenshot.isSome ∧ front.size ≤ n ∧ n < front.size + screenshotTag.size then
            decode (encoded.bytes.extract 0 n) = .ok { decoded with snapshot.screenshot := none }
          else ∃ needed > n, decode (encoded.bytes.extract 0 n) = .error (.truncated needed n)) ∧
      ∀ more : ByteArray, s.screenshot.isSome ∨ more.size < screenshotTag.size ∨
          more.extract 0 screenshotTag.size ≠ screenshotTag →
        decode (encoded.bytes ++ more) = .ok decoded := by
  intro decoded
  obtain ⟨hwf, hl, hbytes⟩ := encode_eq_ok h he
  have hshot : encoded.snapshot.screenshot = s.screenshot := by
    rw [← screenshot_finishTransfer s, finishTransfer_of_encode he]
  rw [hbytes, ← hshot]
  exact ⟨decode_stateBytes hwf hl _, ⟨_, stateBytes_eq _ _, fun n => decode_cut hwf hl _⟩,
    fun more => decode_extended hwf hl _⟩

/-- A savestate that lacks its last byte, one that lacks all but two bytes of its screenshot, and
one that a second screenshot seems to follow. -/
theorem decode_cut_or_extended_waiting :
    waiting.WellFormed ∧ ∃ encoded, encode waiting = .ok encoded ∧
      (∃ needed, decode (encoded.bytes.extract 0 (encoded.bytes.size - 1)) =
        .error (.truncated needed (encoded.bytes.size - 1))) ∧
      decode (encoded.bytes.extract 0 (encoded.bytes.size - 16)) =
        .ok ⟨{ encoded.snapshot with screenshot := none }, encoded.transferEnded⟩ ∧
      decode (encoded.bytes ++ screenshotTag) = .ok ⟨encoded.snapshot, encoded.transferEnded⟩ := by
  obtain ⟨encoded, he⟩ : ∃ encoded, encode waiting = .ok encoded :=
    ⟨_, encode_of_length_le waiting_wellFormed (by decide)⟩
  obtain ⟨-, ⟨front, hbytes, hcut⟩, hmore⟩ := decode_cut_or_extended waiting_wellFormed he
  have hsize := congrArg ByteArray.size hbytes
  rw [ByteArray.size_append, show (screenshotBytes waiting.screenshot).size = 18 by decide] at hsize
  have htag : screenshotTag.size = 4 := rfl
  refine ⟨waiting_wellFormed, encoded, he, ?_, ?_, hmore screenshotTag (.inl rfl)⟩
  · have hc := hcut _ (Nat.sub_lt (by omega) Nat.one_pos)
    rw [if_neg (by omega)] at hc
    obtain ⟨needed, -, hc⟩ := hc
    exact ⟨needed, hc⟩
  · have hc := hcut _ (Nat.sub_lt (by omega) (Nat.succ_pos 15))
    rwa [if_pos ⟨rfl, by omega, by omega⟩] at hc

end Rewind.Savestate
