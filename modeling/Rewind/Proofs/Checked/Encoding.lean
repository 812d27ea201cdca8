import Rewind.Proofs.Checked.Reader
import Rewind.Proofs.Savestate.Sizes

/-!
A writer of savestates that could stop dead. No byte string is longer than `capacity`, so a program
that appends to one stops where it would be. The writer here appends part by part, and looks each
time; otherwise it does as `Savestate.encode` (`Appends`). It does not refuse three things that a
reader does not accept or misreads: an interrupt of the terminator's kind, a movie position with
another number of samples than it says, and a side of a screenshot that is negative as a signed
number. Main statement: what is written is accepted exactly without these (`accepts_encode_iff`).
-/

namespace Rewind

open Machine Savestate Wire

namespace Checked

/-! ## Writing -/

/-- The most bytes that a byte string can have. -/
def capacity : Nat := 0x7FFFFFFFFFFFFFFF

/-- What was appended to, if a byte string can be so long. -/
def held (out : ByteArray) : Except Trap ByteArray :=
  if out.size ≤ capacity then .ok out else .error .tooLong

/-- What a program does about a sum that 64 bits cannot hold, as it was built: it stops dead, or
goes on without the bits above. -/
inductive Overflow
  | stops
  | wraps

/-- The sum of two numbers. -/
def Overflow.add : Overflow → Nat → Nat → Except Trap Nat
  | stops, a, b => Checked.add a b
  | wraps, a, b => .ok ((a + b) % UInt64.size)

/-- Appends a word. -/
def putWord (v : UInt32) (out : ByteArray) : Except Trap ByteArray := held (Layout.u32.put v out)

/-- Appends `n` bytes: as many of `data` as there are, and then zeros. -/
def putExact (overflow : Overflow) (data : ByteArray) (n : Nat) (out : ByteArray) :
    Except Trap ByteArray := do
  let taken := min data.size n
  let out ← held (out ++ data.extract 0 taken)
  let size ← overflow.add out.size (n - taken)
  held (Bytes.fit size out)

/-- Appends the pending interrupts and the terminator. -/
def putEvents (events : List Interrupt) (out : ByteArray) : Except Trap ByteArray := do
  let out ← events.foldlM (fun out e => putWord e.kind out >>= putWord e.count) out
  putWord eventTerminator out

/-- Appends a flag, and the movie position when there is one. -/
def putMovie : Option Movie.Freeze → ByteArray → Except Trap ByteArray
  | none, out => putWord 0 out
  | some f, out => do
    let out ← [1, f.size, f.uid, f.currentSample, f.currentVi, f.lengthSamples].foldlM
      (fun out word => putWord word out) out
    f.inputs.toList.foldlM (fun out sample => held (Sample.layout.put sample out)) out

/-- Appends the screenshot when there is one, its pixels cut or extended to its size. -/
def putScreenshot (overflow : Overflow) :
    Option Screenshot → ByteArray → Except Trap (Except Savestate.Error ByteArray)
  | none, out => .ok (.ok out)
  | some shot, out =>
    match Screenshot.byteCount? shot.width shot.height with
    | none => .ok (.error (.malformed .screenshotOverflow))
    | some n => do
      let out ← held (out ++ screenshotTag)
      let out ← putWord shot.width out >>= putWord shot.height
      return .ok (← putExact overflow shot.rgb n out)

/-- The bytes of a machine; `marked` says whether a transfer was ended for it. -/
def write (overflow : Overflow) (s : Snapshot) (marked : Bool) :
    Except Trap (Except Savestate.Error ByteArray) :=
  if maxEvents < s.interrupts.events.length then
    .ok (.error (.tooManyEvents s.interrupts.events.length))
  else do
    let out ← held (hashLayout.put s.romHash ByteArray.empty)
    let out ← held (fixedLayout.put (if marked then mark s else s) out)
    let out ← putEvents s.interrupts.events out >>= putMovie s.movie
    putScreenshot overflow s.screenshot out

/-- Ends the transfer under way, if there is one, and writes the machine. -/
def encode (overflow : Overflow) (s : Snapshot) : Except Trap (Except Savestate.Error Encoded) :=
  let (s, transferEnded) := finishTransfer s
  (write overflow s transferEnded).map (·.map fun bytes => ⟨bytes, s, transferEnded⟩)

/-! ## What is appended -/

theorem held_of_le {out : ByteArray} (h : out.size ≤ capacity) : held out = .ok out := if_pos h

theorem held_of_lt {out : ByteArray} (h : capacity < out.size) : held out = .error .tooLong :=
  if_neg (Nat.not_le.2 h)

/-- The writer appends `w`, if that can be held. -/
def Appends (writer : ByteArray → Except Trap ByteArray) (w : ByteArray) : Prop :=
  ∀ out, out.size ≤ capacity → writer out = held (out ++ w)

namespace Appends

variable {writer writer' : ByteArray → Except Trap ByteArray} {w w' : ByteArray}

theorem pure : Appends .ok ByteArray.empty := by
  intro out hout
  rw [ByteArray.append_empty, held_of_le hout]

theorem item {layout : Layout α} {v v' : α} (h : layout.ReadsAs v v') :
    Appends (fun out => held (layout.put v out)) (layout.bytes v) :=
  fun out _ => congrArg held (h.put_eq out)

theorem word (v : UInt32) : Appends (putWord v) (Layout.u32.bytes v) := item (Layout.u32_readsAs v)

/-- What is too long after one part stays so. -/
theorem bind (h : Appends writer w) (h' : Appends writer' w') :
    Appends (fun out => writer out >>= writer') (w ++ w') := by
  intro out hout
  simp only [h out hout, ← ByteArray.append_assoc]
  by_cases hle : (out ++ w).size ≤ capacity
  · rw [held_of_le hle]
    exact h' _ hle
  · have hlt : capacity < (out ++ w ++ w').size := by
      rw [ByteArray.size_append]
      omega
    rw [held_of_lt (Nat.not_le.1 hle), held_of_lt hlt]
    rfl

theorem foldlM {put : α → ByteArray → Except Trap ByteArray} {bytes : α → ByteArray}
    (h : ∀ v, Appends (put v) (bytes v)) (l : List α) :
    Appends (fun out => l.foldlM (fun out v => put v out) out)
      (l.foldr (fun v w => bytes v ++ w) ByteArray.empty) := by
  induction l with
  | nil => exact pure
  | cons v l ih =>
    simp only [List.foldlM_cons, List.foldr_cons]
    exact (h v).bind ih

end Appends

theorem eventBytes_eq (events : List Interrupt) : eventBytes events =
    events.foldr (fun e w => Layout.u32.bytes e.kind ++ Layout.u32.bytes e.count ++ w)
      ByteArray.empty ++ Layout.u32.bytes eventTerminator := by
  induction events with
  | nil => exact ByteArray.empty_append.symm
  | cons e events ih => simp only [eventBytes, List.foldr_cons, ih, ByteArray.append_assoc]

theorem putAll_eq_foldr (samples : Array Sample) : Sample.putAll samples ByteArray.empty =
    samples.toList.foldr (fun sample w => Sample.layout.bytes sample ++ w) ByteArray.empty := by
  have h (l : List Sample) (out : ByteArray) :
      l.foldl (fun out sample => Sample.layout.put sample out) out =
        out ++ l.foldr (fun sample w => Sample.layout.bytes sample ++ w) ByteArray.empty := by
    induction l generalizing out with
    | nil => exact ByteArray.append_empty.symm
    | cons sample l ih =>
      rw [List.foldl_cons, ih, (Sample.layout_readsAs sample).put_eq, List.foldr_cons,
        ByteArray.append_assoc]
  rw [Sample.putAll, ← Array.foldl_toList, h, ByteArray.empty_append]

theorem putEvents_appends (events : List Interrupt) :
    Appends (putEvents events) (eventBytes events) := by
  have hevent (e : Interrupt) := (Appends.word e.kind).bind (.word e.count)
  rw [eventBytes_eq]
  exact (Appends.foldlM hevent events).bind (.word eventTerminator)

theorem putMovie_appends (movie : Option Movie.Freeze) :
    Appends (putMovie movie) (movieBytes movie) := by
  cases movie with
  | none => exact .word 0
  | some f =>
    have hsamples := Appends.foldlM (fun sample => .item (Sample.layout_readsAs sample))
      f.inputs.toList
    rw [← putAll_eq_foldr] at hsamples
    have hwords := Appends.foldlM Appends.word
      [1, f.size, f.uid, f.currentSample, f.currentVi, f.lengthSamples]
    have h := hwords.bind hsamples
    simp only [List.foldr_cons, List.foldr_nil, ByteArray.append_empty, ByteArray.append_assoc] at h
    exact h

/-- Everything in front of the screenshot is written if it can be held. -/
theorem write_of_length_le (overflow : Overflow) {s : Snapshot}
    (hl : s.interrupts.events.length ≤ maxEvents) (marked : Bool) : write overflow s marked =
      (held (machineBytes s marked) >>= putScreenshot overflow s.screenshot) := by
  have hparts := ((Appends.item (Layout.block_readsAs s.romHash)).bind
    (.item (fixedLayout_readsAs (if marked then mark s else s)))).bind
    ((putEvents_appends s.interrupts.events).bind (putMovie_appends s.movie))
  have h := hparts ByteArray.empty (Nat.zero_le _)
  rw [ByteArray.empty_append, ByteArray.append_assoc] at h
  have hm : machineBytes s marked = hashLayout.bytes s.romHash ++
      (fixedLayout.bytes (if marked then mark s else s) ++
        (eventBytes s.interrupts.events ++ movieBytes s.movie)) := rfl
  rw [write, if_neg (Nat.not_lt.2 hl), hm]
  simp only [← h, hashLayout, bind_assoc]

/-! ## The pixels of a screenshot -/

section
variable {overflow : Overflow} {data out : ByteArray} {n : Nat}

theorem Overflow.add_of_lt {a b : Nat} (h : a + b < UInt64.size) :
    overflow.add a b = .ok (a + b) := by
  cases overflow with
  | stops => exact add_eq h
  | wraps => exact congrArg Except.ok (Nat.mod_eq_of_lt h)

theorem size_taken (data : ByteArray) (n : Nat) :
    (data.extract 0 (min data.size n)).size = min data.size n := by
  rw [ByteArray.size_extract]
  omega

/-- Pixels are cut, or extended with zeros. -/
theorem fit_taken (data out : ByteArray) (n : Nat) :
    Bytes.fit (out.size + n) (out ++ data.extract 0 (min data.size n)) =
      out ++ Bytes.fit n data := by
  have hsize : (out ++ data.extract 0 (min data.size n)).size = out.size + min data.size n := by
    rw [ByteArray.size_append, size_taken]
  by_cases hle : n ≤ data.size
  · rw [Nat.min_eq_right hle] at hsize ⊢
    rw [Bytes.fit_of_size hsize]
    obtain rfl | hlt := Nat.eq_or_lt_of_le hle
    · rw [Bytes.fit_of_size rfl, ByteArray.extract_zero_size]
    · rw [Bytes.fit, if_neg (by omega), if_neg (by omega)]
  · have hlt := Nat.not_le.1 hle
    rw [Nat.min_eq_left (Nat.le_of_lt hlt), ByteArray.extract_zero_size] at hsize ⊢
    rw [Bytes.fit, if_neg (by omega), if_pos (by omega), Bytes.fit, if_neg (by omega), if_pos hlt,
      hsize, Nat.add_sub_add_left, ByteArray.append_assoc]

theorem putExact_eq (h : out.size + min data.size n ≤ capacity) :
    putExact overflow data n out =
      (overflow.add (out.size + min data.size n) (n - min data.size n) >>= fun size =>
        held (Bytes.fit size (out ++ data.extract 0 (min data.size n)))) := by
  have hsize : (out ++ data.extract 0 (min data.size n)).size = out.size + min data.size n := by
    rw [ByteArray.size_append, size_taken]
  have hheld := held_of_le (show (out ++ data.extract 0 (min data.size n)).size ≤ capacity by omega)
  rw [putExact]
  simp only [hheld, ← hsize]
  rfl

theorem putExact_of_le (h : out.size + n ≤ capacity) :
    putExact overflow data n out = .ok (out ++ Bytes.fit n data) := by
  have htaken : min data.size n ≤ n := Nat.min_le_right _ _
  have hsum : out.size + min data.size n + (n - min data.size n) = out.size + n := by omega
  have hcapacity : capacity < UInt64.size := by decide
  rw [putExact_eq (by omega), Overflow.add_of_lt (by omega), hsum]
  change held (Bytes.fit (out.size + n) _) = _
  rw [fit_taken]
  exact held_of_le (by rw [ByteArray.size_append, Bytes.size_fit]; exact h)

theorem exists_fit_iff {size : Except Trap Nat} :
    (∃ bytes, (size >>= fun n => held (Bytes.fit n out)) = .ok bytes) ↔
      ∃ n ≤ capacity, size = .ok n := by
  cases size with
  | error trap => exact iff_of_false nofun nofun
  | ok n =>
    have hbind : (Except.ok n >>= fun n => held (Bytes.fit n out)) = held (Bytes.fit n out) := rfl
    rw [hbind, held, Bytes.size_fit]
    split
    · next hle => exact iff_of_true ⟨_, rfl⟩ ⟨n, hle, rfl⟩
    · next hle =>
      refine iff_of_false nofun ?_
      rintro ⟨_, hle', ⟨⟩⟩
      exact hle hle'

/-- A sum is a length that can be held, or wraps around to one. -/
theorem Overflow.exists_add_iff {a b : Nat} (ha : a ≤ capacity) (hb : b < UInt64.size) :
    (∃ n ≤ capacity, overflow.add a b = .ok n) ↔
      a + b ≤ capacity ∨ overflow = .wraps ∧ UInt64.size ≤ a + b := by
  have hcapacity : capacity < UInt64.size := by decide
  by_cases hlt : a + b < UInt64.size
  · rw [add_of_lt hlt, or_iff_left fun h => Nat.not_le.2 hlt h.2]
    constructor
    · rintro ⟨_, hle, ⟨⟩⟩
      exact hle
    · exact fun hle => ⟨_, hle, rfl⟩
  · have hle := Nat.le_of_not_lt hlt
    rw [or_iff_right (by omega)]
    cases overflow with
    | stops =>
      have hstop : Overflow.stops.add a b = .error .overflow := if_neg hlt
      rw [hstop]
      exact iff_of_false nofun nofun
    | wraps =>
      have hmod : (a + b) % UInt64.size ≤ a + b - UInt64.size := by
        rw [Nat.mod_eq_sub_mod hle]
        exact Nat.mod_le _ _
      exact iff_of_true ⟨_, by omega, rfl⟩ ⟨rfl, hle⟩

/-- Pixels that cannot be held are not appended, unless a sum wraps around. -/
theorem exists_putExact_iff (hn : n < UInt64.size) :
    (∃ bytes, putExact overflow data n out = .ok bytes) ↔ out.size + n ≤ capacity ∨
      overflow = .wraps ∧ UInt64.size ≤ out.size + n ∧
        out.size + min data.size n ≤ capacity := by
  have hsum : out.size + min data.size n + (n - min data.size n) = out.size + n := by omega
  by_cases hheld : out.size + min data.size n ≤ capacity
  · rw [putExact_eq hheld, exists_fit_iff, Overflow.exists_add_iff hheld (by omega), hsum,
      and_iff_left hheld]
  · have hstop : held (out ++ data.extract 0 (min data.size n)) = .error .tooLong := by
      refine held_of_lt ?_
      rw [ByteArray.size_append, size_taken]
      omega
    rw [putExact]
    simp only [hstop]
    exact iff_of_false nofun (by omega)

/-- A screenshot whose pixels can be counted. -/
theorem putScreenshot_eq {shot : Screenshot}
    (hn : Screenshot.byteCount? shot.width shot.height = some n) (h : out.size ≤ capacity) :
    putScreenshot overflow (some shot) out = (held (out ++ (screenshotTag ++
      (Layout.u32.bytes shot.width ++ Layout.u32.bytes shot.height))) >>=
        putExact overflow shot.rgb n).map .ok := by
  have htag : Appends (fun out => held (out ++ screenshotTag)) screenshotTag := fun _ _ => rfl
  have hlead := htag.bind ((Appends.word shot.width).bind (.word shot.height)) out h
  simp only [putScreenshot, hn, ← hlead, bind_assoc, bind_pure_comp]
  simp only [← map_bind]
  rfl

theorem size_lead (shot : Screenshot) (out : ByteArray) : (out ++ (screenshotTag ++
    (Layout.u32.bytes shot.width ++ Layout.u32.bytes shot.height))).size =
      out.size + screenshotLead := by
  simp only [ByteArray.size_append, Layout.size_bytes_u32]
  rfl

theorem putScreenshot_of_le {screenshot : Option Screenshot}
    (h : out.size + screenshotSize screenshot ≤ capacity) :
    putScreenshot overflow screenshot out =
      .ok (.ok (out ++ screenshotBytes (screenshot.map Screenshot.fitted))) := by
  cases screenshot with
  | none => rw [Option.map_none, screenshotBytes, ByteArray.append_empty]; rfl
  | some shot =>
    have hcapacity : capacity < UInt64.size := by decide
    have hsize : out.size + screenshotLead + shot.width.toNat * shot.height.toNat * 3 ≤
        capacity := by
      rw [Nat.add_assoc]
      exact h
    rw [← size_lead shot] at hsize
    have hn : Screenshot.byteCount? shot.width shot.height =
        some (shot.width.toNat * shot.height.toNat * 3) := if_pos (by omega)
    rw [putScreenshot_eq hn (by omega), held_of_le (by omega)]
    change (putExact _ _ _ _).map _ = _
    rw [putExact_of_le hsize]
    simp only [Except.map, Option.map_some, screenshotBytes, Screenshot.fitted,
      ByteArray.append_assoc]

theorem exists_map_ok_iff {α : Type} {x : Except Trap α} :
    (∃ v, x.map Except.ok = .ok (.ok v : Except Savestate.Error α)) ↔ ∃ v, x = .ok v := by
  cases x with
  | error trap => exact iff_of_false nofun nofun
  | ok v => exact iff_of_true ⟨v, rfl⟩ ⟨v, rfl⟩

/-- A screenshot is written if it can be held, or if a sum wraps around to less. -/
theorem exists_putScreenshot_iff {screenshot : Option Screenshot} (h : out.size ≤ capacity) :
    (∃ bytes, putScreenshot overflow screenshot out = .ok (.ok bytes)) ↔
      out.size + screenshotSize screenshot ≤ capacity ∨ overflow = .wraps ∧ ∃ shot ∈ screenshot,
        ∃ n, Screenshot.byteCount? shot.width shot.height = some n ∧
          UInt64.size ≤ out.size + screenshotLead + n ∧
          out.size + screenshotLead + min shot.rgb.size n ≤ capacity := by
  by_cases hle : out.size + screenshotSize screenshot ≤ capacity
  · exact iff_of_true ⟨_, putScreenshot_of_le hle⟩ (.inl hle)
  rw [or_iff_right hle]
  cases screenshot with
  | none => exact absurd h hle
  | some shot =>
    cases hn : Screenshot.byteCount? shot.width shot.height with
    | none =>
      rw [putScreenshot, hn]
      refine iff_of_false nofun ?_
      rintro ⟨-, _, ⟨⟩, n, hn', -⟩
      rw [hn] at hn'
      cases hn'
    | some n =>
      have hsize := size_lead shot out
      have hcount : ¬out.size + screenshotLead + n ≤ capacity := by
        rw [Screenshot.eq_of_byteCount? hn, Nat.add_assoc]
        exact hle
      rw [putScreenshot_eq hn h, exists_map_ok_iff]
      generalize out ++ (screenshotTag ++ _) = lead at hsize
      have hpixels : (∃ bytes, (held lead >>= putExact overflow shot.rgb n) = .ok bytes) ↔
          overflow = .wraps ∧ UInt64.size ≤ lead.size + n ∧
            lead.size + min shot.rgb.size n ≤ capacity := by
        by_cases hheld : lead.size ≤ capacity
        · rw [held_of_le hheld]
          exact (exists_putExact_iff (Screenshot.lt_of_byteCount? hn)).trans
            (or_iff_right (by omega))
        · rw [held_of_lt (Nat.not_le.1 hheld)]
          exact iff_of_false nofun (by omega)
      rw [hpixels, hsize]
      refine and_congr_right fun _ => ⟨fun h => ⟨shot, rfl, n, hn, h⟩, ?_⟩
      rintro ⟨_, ⟨⟩, n', hn', h⟩
      obtain rfl := Option.some.inj (hn.symm.trans hn')
      exact h

/-- A screenshot is refused if its pixels cannot be counted. -/
theorem exists_putScreenshot_error_iff {screenshot : Option Screenshot} (h : out.size ≤ capacity) :
    (∃ e, putScreenshot overflow screenshot out = .ok (.error e)) ↔ ∃ shot ∈ screenshot,
      Screenshot.byteCount? shot.width shot.height = none := by
  cases screenshot with
  | none => exact iff_of_false nofun nofun
  | some shot =>
    cases hn : Screenshot.byteCount? shot.width shot.height with
    | none =>
      rw [putScreenshot, hn]
      exact iff_of_true ⟨_, rfl⟩ ⟨shot, rfl, hn⟩
    | some n =>
      rw [putScreenshot_eq hn h]
      refine iff_of_false ?_ ?_
      · rintro ⟨e, he⟩
        cases hx : held _ >>= putExact overflow shot.rgb n with
        | error trap => rw [hx] at he; cases he
        | ok bytes => rw [hx] at he; cases he
      · rintro ⟨_, ⟨⟩, hnone⟩
        rw [hn] at hnone
        cases hnone

/-! ## The whole savestate -/

/-- The savestate has more bytes than 64 bits can count, but could be held without the zeros that
are put behind the pixels. -/
def WrapsAround (s : Snapshot) : Prop :=
  ∃ shot ∈ s.screenshot, ∃ n, Screenshot.byteCount? shot.width shot.height = some n ∧
    UInt64.size ≤ s.frontSize + screenshotLead + n ∧
    s.frontSize + screenshotLead + min shot.rgb.size n ≤ capacity

variable {s : Snapshot} {marked : Bool}

/-- What can be held is written as it is without a look at the length. -/
theorem write_eq (hl : s.interrupts.events.length ≤ maxEvents) (hsize : s.savedSize ≤ capacity) :
    write overflow s marked = .ok (Savestate.write s marked) := by
  have hfront : s.frontSize ≤ capacity := Nat.le_trans (Nat.le_add_right _ _) hsize
  have hpixels : ∀ shot ∈ s.screenshot,
      (Screenshot.byteCount? shot.width shot.height).isSome := by
    intro shot hshot
    have hcapacity : capacity < UInt64.size := by decide
    rw [Snapshot.savedSize, Option.mem_def.1 hshot, screenshotSize] at hsize
    have hn : Screenshot.byteCount? shot.width shot.height =
        some (shot.width.toNat * shot.height.toNat * 3) := if_pos (by omega)
    rw [hn]
    rfl
  rw [← size_machineBytes s marked] at hfront
  rw [Snapshot.savedSize, ← size_machineBytes s marked] at hsize
  rw [write_of_length_le overflow hl, held_of_le hfront, Savestate.write_of_length_le hl,
    putScreenshot_fitted hpixels]
  exact putScreenshot_of_le hsize

theorem exists_write_iff : (∃ bytes, write overflow s marked = .ok (.ok bytes)) ↔
    s.interrupts.events.length ≤ maxEvents ∧
      (s.savedSize ≤ capacity ∨ overflow = .wraps ∧ WrapsAround s) := by
  by_cases hl : s.interrupts.events.length ≤ maxEvents
  · rw [and_iff_right hl, write_of_length_le overflow hl, Snapshot.savedSize, WrapsAround,
      ← size_machineBytes s marked]
    by_cases hfront : (machineBytes s marked).size ≤ capacity
    · rw [held_of_le hfront]
      exact exists_putScreenshot_iff hfront
    · rw [held_of_lt (Nat.not_le.1 hfront)]
      refine iff_of_false nofun ?_
      rintro (hle | ⟨-, shot, -, n, -, -, hle⟩) <;> omega
  · rw [write, if_pos (Nat.not_le.1 hl)]
    exact iff_of_false nofun fun h => hl h.1

theorem exists_write_error_iff : (∃ e, write overflow s marked = .ok (.error e)) ↔
    maxEvents < s.interrupts.events.length ∨ s.frontSize ≤ capacity ∧
      ∃ shot ∈ s.screenshot, Screenshot.byteCount? shot.width shot.height = none := by
  by_cases hl : s.interrupts.events.length ≤ maxEvents
  · rw [or_iff_right (Nat.not_lt.2 hl), write_of_length_le overflow hl,
      ← size_machineBytes s marked]
    by_cases hfront : (machineBytes s marked).size ≤ capacity
    · rw [held_of_le hfront, and_iff_right hfront]
      exact exists_putScreenshot_error_iff hfront
    · rw [held_of_lt (Nat.not_le.1 hfront)]
      exact iff_of_false nofun fun h => hfront h.1
  · have hlt := Nat.not_le.1 hl
    rw [write, if_pos hlt]
    exact iff_of_true ⟨_, rfl⟩ (.inl hlt)

section
variable {α β : Type} {x : Except Trap (Except Savestate.Error α)} {f : α → β}

theorem map_eq_ok_iff {b : β} : x.map (·.map f) = .ok (.ok b) ↔ ∃ a, x = .ok (.ok a) ∧ f a = b := by
  match x with
  | .error trap => exact iff_of_false nofun nofun
  | .ok (.error e) => exact iff_of_false nofun nofun
  | .ok (.ok a) => simp [Except.map]

theorem map_eq_error_iff {e : Savestate.Error} :
    x.map (·.map f) = .ok (.error e) ↔ x = .ok (.error e) := by
  match x with
  | .error trap => exact iff_of_false nofun nofun
  | .ok (.error e) => simp [Except.map]
  | .ok (.ok a) => exact iff_of_false nofun nofun

end

theorem encode_eq_map : encode overflow s = (write overflow (finishTransfer s).1
    (finishTransfer s).2).map (·.map fun bytes => ⟨bytes, (finishTransfer s).1,
      (finishTransfer s).2⟩) := rfl

/-- A machine is saved as what is written after its transfer was ended. -/
theorem encode_eq_ok_iff {encoded : Encoded} : encode overflow s = .ok (.ok encoded) ↔
    finishTransfer s = (encoded.snapshot, encoded.transferEnded) ∧
      write overflow encoded.snapshot encoded.transferEnded = .ok (.ok encoded.bytes) := by
  rw [encode_eq_map, map_eq_ok_iff]
  constructor
  · rintro ⟨bytes, hw, rfl⟩
    exact ⟨rfl, hw⟩
  · rintro ⟨hfinish, hw⟩
    rw [hfinish]
    exact ⟨_, hw, rfl⟩

theorem exists_encode_iff : (∃ encoded, encode overflow s = .ok (.ok encoded)) ↔
    ∃ bytes, write overflow (finishTransfer s).1 (finishTransfer s).2 = .ok (.ok bytes) := by
  rw [encode_eq_map]
  simp only [map_eq_ok_iff]
  constructor
  · rintro ⟨_, bytes, hw, -⟩
    exact ⟨bytes, hw⟩
  · rintro ⟨bytes, hw⟩
    exact ⟨_, bytes, hw, rfl⟩

/-- The bytes of an expressible machine can be counted. -/
theorem savedSize_lt (h : s.Expressible) (hl : s.interrupts.events.length ≤ maxEvents) :
    s.savedSize < UInt64.size := by
  have hmovie : movieSize s.movie ≤ 24 + UInt32.size * Sample.size := by
    cases hm : s.movie with
    | none => exact Nat.le_of_ble_eq_true rfl
    | some freeze =>
      have hcount := h.movie freeze hm
      have hlt := freeze.lengthSamples.toNat_lt_size
      exact Nat.add_le_add_left (Nat.mul_le_mul_right _ (by omega)) _
  have hscreen : screenshotSize s.screenshot ≤ 12 + 0x4000000000000000 * 3 := by
    cases hs : s.screenshot with
    | none => exact Nat.zero_le _
    | some shot =>
      obtain ⟨hw, hh⟩ := h.screenshot shot hs
      exact Nat.add_le_add_left (Nat.mul_le_mul_right _ (Screenshot.area_le hw hh)) _
  have hfixed : romHashSize + fixedBlockSize + (8 * maxEvents + 4) +
      (24 + UInt32.size * Sample.size) + (12 + 0x4000000000000000 * 3) < UInt64.size := by decide
  rw [Snapshot.savedSize, Snapshot.frontSize]
  omega

/-- **What is saved is accepted exactly when the machine can be expressed.** A machine is refused
for too many interrupts or pixels that cannot be counted, and saved otherwise, but a savestate that
cannot be held stops the program dead unless a sum wraps around. What is saved reads back with its
interrupts, movie position and size of screenshot if no interrupt is a terminator, the position has
as many samples as it says, and no side reaches 2^31; and only then. -/
theorem accepts_encode_iff (overflow : Overflow) (s : Snapshot) :
    let t := (finishTransfer s).1
    ((∃ encoded, encode overflow s = .ok (.ok encoded)) ↔
      t.interrupts.events.length ≤ maxEvents ∧
        (t.savedSize ≤ capacity ∨ overflow = .wraps ∧ WrapsAround t)) ∧
    ((∃ e, encode overflow s = .ok (.error e)) ↔
      maxEvents < t.interrupts.events.length ∨ t.frontSize ≤ capacity ∧
        ∃ shot ∈ t.screenshot, Screenshot.byteCount? shot.width shot.height = none) ∧
    ∀ encoded, encode overflow s = .ok (.ok encoded) →
      ((∃ decoded, Savestate.decode encoded.bytes = .ok decoded ∧
        Agrees encoded.snapshot decoded.snapshot) ↔ s.Expressible) := by
  intro t
  refine ⟨exists_encode_iff.trans exists_write_iff, ?_, fun encoded hencode => ?_⟩
  · rw [encode_eq_map]
    simp only [map_eq_error_iff]
    exact exists_write_error_iff
  obtain ⟨hfinish, hw⟩ := encode_eq_ok_iff.1 hencode
  rw [← finishTransfer_expressible_iff, hfinish]
  constructor
  · rintro ⟨decoded, hdecode, hagrees⟩
    exact hagrees.expressible (decode_wellFormed hdecode).1.expressible
  · intro (h : encoded.snapshot.Expressible)
    obtain ⟨hl, hle | ⟨-, shot, hshot, n, hn, hwraps, -⟩⟩ := exists_write_iff.1 ⟨_, hw⟩
    · exact ⟨_, decode_of_write h (Except.ok.inj ((write_eq hl hle).symm.trans hw)),
        agrees_carried _⟩
    · -- No sum wraps around for an expressible machine.
      have hlt := savedSize_lt h hl
      rw [Snapshot.savedSize, Option.mem_def.1 hshot, screenshotSize,
        ← Screenshot.eq_of_byteCount? hn] at hlt
      omega

end

/-- A machine with a screenshot whose width is negative as a signed number, and without pixels. -/
def negativeWide : Snapshot :=
  { waiting with screenshot := some ⟨0x80000000, 0, ByteArray.empty⟩ }

/-- It is saved, and nothing can load the savestate. -/
theorem not_accepts_negativeWide : ∃ encoded, encode .stops negativeWide = .ok (.ok encoded) ∧
    ¬∃ decoded, Savestate.decode encoded.bytes = .ok decoded ∧
      Agrees encoded.snapshot decoded.snapshot := by
  obtain ⟨hsaved, -, haccepted⟩ := accepts_encode_iff .stops negativeWide
  obtain ⟨encoded, hencode⟩ := hsaved.2 ⟨by decide, .inl (by decide)⟩
  refine ⟨encoded, hencode, fun h => ?_⟩
  obtain ⟨hwidth, -⟩ := ((haccepted encoded hencode).1 h).screenshot _ rfl
  exact absurd hwidth (by decide)

end Checked

end Rewind
