import Rewind.Proofs.Savestate.Accepted

/-!
Readers that could stop dead. A program on a 64-bit machine stops where a number leaves the 64 bits,
where it asks for a part of the data that is not there, and where it copies bytes into a place of
another size. The readers here make all these checks: a position is a number that is computed, and
nothing keeps it inside the data but the reader itself. Main notions: in front of enough data a
checked reader takes what a layout has there (`Reads`), and on data of any content it does as the
reader of a savestate does (`Follows`).
-/

namespace Rewind

open Wire

namespace Checked

/-! ## Arithmetic -/

/-- Why a program stops dead. -/
inductive Trap
  /-- A number that 64 bits cannot hold. -/
  | overflow
  /-- A part of the data that is not all there. -/
  | outside
  /-- Bytes copied into a place of another size. -/
  | mismatch
  /-- A position behind the end of the data. -/
  | astray
  /-- A loop that goes on longer than it is meant to. -/
  | endless
  /-- A byte string that is longer than any can be. -/
  | tooLong
deriving DecidableEq, Repr

/-- A number, if 64 bits can hold it. -/
def number (n : Nat) : Except Trap Nat := if n < UInt64.size then .ok n else .error .overflow

/-- The sum of two numbers. -/
def add (a b : Nat) : Except Trap Nat := number (a + b)

/-- The product of two numbers. -/
def mul (a b : Nat) : Except Trap Nat := number (a * b)

/-- The difference of two numbers, which must not be negative. -/
def sub (a b : Nat) : Except Trap Nat := if b ≤ a then .ok (a - b) else .error .overflow

/-- The bytes from `start` up to `stop`. -/
def slice (data : ByteArray) (start stop : Nat) : Except Trap ByteArray :=
  if start ≤ stop ∧ stop ≤ data.size then .ok (data.extract start stop) else .error .outside

variable {a b : Nat}

theorem add_eq (h : a + b < UInt64.size) : add a b = .ok (a + b) := if_pos h

theorem mul_eq (h : a * b < UInt64.size) : mul a b = .ok (a * b) := if_pos h

theorem sub_eq (h : b ≤ a) : sub a b = .ok (a - b) := if_pos h

theorem slice_eq {data : ByteArray} {start stop : Nat} (h : start ≤ stop) (h' : stop ≤ data.size) :
    slice data start stop = .ok (data.extract start stop) := if_pos ⟨h, h'⟩

/-! ## Readers -/

/-- A byte string and a number that should be a position in it. -/
structure Place where
  data : ByteArray
  pos : Nat

/-- A reader gives a value and moves on, refuses the data, or stops dead. -/
abbrev Reader (ε : Type) := StateT Place (ExceptT ε (Except Trap))

namespace Reader

variable {ε : Type}

/-- Does a calculation. -/
def compute (x : Except Trap α) : Reader ε α := fun p => x.map fun a => .ok (a, p)

/-- The number of bytes left. -/
def remaining : Reader Savestate.Error Nat := do
  let p ← get
  compute (sub p.data.size p.pos)

/-- Fails unless `n` bytes are left. -/
def require (n : Nat) : Reader Savestate.Error Unit := do
  if (← remaining) < n then
    let p ← get
    let needed ← compute (add p.pos n)
    throw (.truncated needed p.data.size)

/-- Goes to a position, which must be one in the data. -/
def moveTo (pos : Nat) : Reader Savestate.Error Unit := fun p =>
  if pos ≤ p.data.size then .ok (.ok ((), ⟨p.data, pos⟩)) else .error .astray

/-- Takes the next `n` bytes. -/
def bytes (n : Nat) : Reader Savestate.Error ByteArray := do
  require n
  let p ← get
  let stop ← compute (add p.pos n)
  let taken ← compute (slice p.data p.pos stop)
  moveTo stop
  return taken

/-- Takes a value of fixed size, whose bytes are copied into a place of that size. -/
def item (layout : Layout α) : Reader Savestate.Error α := do
  let taken ← bytes layout.size
  if taken.size = layout.size then return layout.get taken 0 else compute (.error .mismatch)

/-- Takes `n` values one after the other. -/
def vector (n : Nat) (one : Reader ε α) : Reader ε (Vector α n) :=
  match n with
  | 0 => return #v[]
  | n + 1 => do
    let front ← vector n one
    return front.push (← one)

/-- Takes the registers of a block, one after the other. -/
def block (blank : R) (registers : List (Register R)) : Reader Savestate.Error R :=
  registers.foldlM (fun r register => return register.set (← item register.width.layout) r) blank

/-- What a reader takes from the front of `data`. -/
def runOn (reader : Reader ε α) (data : ByteArray) : Except Trap (Except ε α) :=
  Except.map (Except.map (·.1)) (reader.run ⟨data, 0⟩).run

/-! ## What a step does -/

variable {reader : Reader ε α} {next : α → Reader ε β} {p q : Place} {v : α} {e : ε}

theorem bind_of_ok (h : reader p = .ok (.ok (v, q))) : (reader >>= next) p = next v q := by
  have hb : (reader >>= next) p = ExceptT.bind (reader p) fun (a, q) => next a q := rfl
  rw [hb, h]
  rfl

theorem bind_of_error (h : reader p = .ok (.error e)) : (reader >>= next) p = .ok (.error e) := by
  have hb : (reader >>= next) p = ExceptT.bind (reader p) fun (a, q) => next a q := rfl
  rw [hb, h]
  rfl

theorem compute_of_ok {x : Except Trap α} (h : x = .ok v) :
    (compute x : Reader ε α) p = .ok (.ok (v, p)) := by
  rw [compute, h]
  rfl

theorem get_eq (p : Place) : (get : Reader ε Place) p = .ok (.ok (p, p)) := rfl

theorem remaining_of_le (h : p.pos ≤ p.data.size) :
    remaining p = .ok (.ok (p.data.size - p.pos, p)) := by
  rw [remaining, bind_of_ok (get_eq p), compute_of_ok (sub_eq h)]

theorem require_of_le {n : Nat} (h : p.pos + n ≤ p.data.size) :
    require n p = .ok (.ok ((), p)) := by
  rw [require, bind_of_ok (remaining_of_le (by omega)), if_neg (by omega)]
  rfl

/-- Where there is enough, the next bytes are taken. -/
theorem bytes_of_le {n : Nat} (hs : p.data.size < UInt64.size) (h : p.pos + n ≤ p.data.size) :
    bytes n p = .ok (.ok (p.data.extract p.pos (p.pos + n), ⟨p.data, p.pos + n⟩)) := by
  have hmove : moveTo (p.pos + n) p = .ok (.ok ((), ⟨p.data, p.pos + n⟩)) := if_pos h
  rw [bytes, bind_of_ok (require_of_le h), bind_of_ok (get_eq p),
    bind_of_ok (compute_of_ok (add_eq (by omega))),
    bind_of_ok (compute_of_ok (slice_eq (Nat.le_add_right _ _) h)), bind_of_ok hmove]
  rfl

/-- Where there is not enough, the data is refused; the position that would have been reached can be
told. -/
theorem require_of_lt {n : Nat} (hp : p.pos ≤ p.data.size) (h : p.data.size < p.pos + n)
    (hn : p.pos + n < UInt64.size) :
    require n p = .ok (.error (.truncated (p.pos + n) p.data.size)) := by
  rw [require, bind_of_ok (remaining_of_le hp), if_pos (by omega), bind_of_ok (get_eq p),
    bind_of_ok (compute_of_ok (add_eq hn))]
  rfl

end Reader

/-! ## What is taken from enough data -/

/-- The length up to which nothing goes wrong, 2^62. -/
def limit : Nat := 0x4000000000000000

open Reader

/-- In the front of some data, the reader takes `n` bytes, and gives what `read` makes of the data
there. -/
def Reads (reader : Reader Savestate.Error α) (n : Nat) (read : ByteArray → Nat → α) : Prop :=
  ∀ (data : ByteArray) (stop pos : Nat), data.size < limit → stop ≤ data.size → pos + n ≤ stop →
    reader ⟨data.extract 0 stop, pos⟩ =
      .ok (.ok (read data pos, ⟨data.extract 0 stop, pos + n⟩))

namespace Reads

theorem pure (v : α) : Reads (pure v) 0 fun _ _ => v := fun _ _ _ _ _ _ => rfl

theorem bind {reader : Reader Savestate.Error α} {next : α → Reader Savestate.Error β} {n m : Nat}
    {read : ByteArray → Nat → α} {read' : α → ByteArray → Nat → β} (h : Reads reader n read)
    (h' : ∀ v, Reads (next v) m (read' v)) :
    Reads (reader >>= next) (n + m) fun data i => read' (read data i) data (i + n) := by
  intro data stop pos hsize hstop hpos
  rw [bind_of_ok (h _ _ _ hsize hstop (by omega)), h' _ _ _ _ hsize hstop (by omega),
    Nat.add_assoc]

theorem bytes (n : Nat) : Reads (bytes n) n fun data i => data.extract i (i + n) := by
  intro data stop pos hsize hstop hpos
  have hs : (data.extract 0 stop).size = stop := by rw [ByteArray.size_extract]; omega
  have hlimit : limit < UInt64.size := by decide
  have hx : (data.extract 0 stop).extract pos (pos + n) = data.extract pos (pos + n) := by
    rw [ByteArray.extract_extract]
    congr 1 <;> omega
  rw [bytes_of_le (by simp only [hs]; omega) (by simp only [hs]; exact hpos)]
  simp only [hx]

theorem region (n : Nat) : Reads (Reader.bytes n) n (Layout.region n).get := by
  intro data stop pos hsize hstop hpos
  have hfit : (Layout.region n).get data pos = data.extract pos (pos + n) :=
    Bytes.fit_of_size (Layout.size_extract_of_le (by omega))
  rw [hfit]
  exact bytes n _ _ _ hsize hstop hpos

theorem item {layout : Layout α} (h : layout.Local) :
    Reads (item layout) layout.size layout.get := by
  intro data stop pos hsize hstop hpos
  have hle : pos + layout.size ≤ data.size := by omega
  rw [Reader.item, bind_of_ok (bytes _ _ _ _ hsize hstop hpos),
    if_pos (Layout.size_extract_of_le hle), h hle]
  rfl

theorem vector {one : Reader Savestate.Error α} {m : Nat} {read : ByteArray → Nat → α}
    (h : Reads one m read) (n : Nat) :
    Reads (vector n one) (n * m) fun data i =>
      Vector.ofFn fun k : Fin n => read data (i + k * m) := by
  induction n with
  | zero =>
    rw [Nat.zero_mul]
    exact pure _
  | succ n ih =>
    have hs : n * m + (m + 0) = (n + 1) * m := by rw [Nat.succ_mul, Nat.add_zero]
    have hr := ih.bind fun front => h.bind fun v => pure (front.push v)
    rw [hs] at hr
    simp only [Vector.ofFn_succ]
    exact hr

theorem vector_layout {one : Reader Savestate.Error α} {item : Layout α}
    (h : Reads one item.size item.get) (n : Nat) :
    Reads (Reader.vector n one) (Layout.vector n item).size (Layout.vector n item).get :=
  vector h n

theorem cons {R : Type} {member : Member R} {members : List (Member R)} {blank : R}
    {one : Reader Savestate.Error member.Value} {next : member.Value → Reader Savestate.Error R}
    (h : Reads one member.layout.size member.layout.get)
    (h' : ∀ v, Reads (next v) (Member.totalSize members)
      (Member.getAll members (member.set v blank))) :
    Reads (one >>= next) (Member.totalSize (member :: members))
      (Member.getAll (member :: members) blank) :=
  h.bind h'

theorem nil {R : Type} {r blank : R} (h : r = blank) :
    Reads (Pure.pure r) (Member.totalSize ([] : List (Member R))) (Member.getAll [] blank) := by
  subst h
  exact pure r

theorem block {R : Type} (blank : R) (registers : List (Register R)) :
    Reads (block blank registers) (Register.layout blank registers).size
      (Register.layout blank registers).get := by
  induction registers generalizing blank with
  | nil => exact pure blank
  | cons register registers ih =>
    have hone : Reads (do return register.set (← Reader.item register.width.layout) blank)
        (register.width.layout.size + 0) _ :=
      (item register.width.layout_local).bind fun v => pure (register.set v blank)
    exact hone.bind ih

end Reads

/-! ## Doing as the reader of a savestate does -/

/-- A place that is known to lie in the data. -/
def Place.of (c : Savestate.Cursor) : Place := ⟨c.data, c.pos⟩

theorem Reads.of_cursor {reader : Reader Savestate.Error α} {n : Nat} {read : ByteArray → Nat → α}
    (h : Reads reader n read) {c : Savestate.Cursor} (hc : c.data.size < limit)
    (hle : c.pos + n ≤ c.data.size) :
    reader (.of c) = .ok (.ok (read c.data c.pos, ⟨c.data, c.pos + n⟩)) := by
  have hreads := h c.data c.data.size c.pos hc (Nat.le_refl _) hle
  rwa [ByteArray.extract_zero_size] at hreads

/-- On data within the limit both readers refuse it for the same reason, or give the same value and
move to the same place. -/
def Follows (reader : Reader Savestate.Error α) (reader' : Savestate.Reader α) : Prop :=
  ∀ c : Savestate.Cursor, c.data.size < limit →
    (∃ e, reader' c = .error e ∧ reader (.of c) = .ok (.error e)) ∨
    ∃ v c', reader' c = .ok (v, c') ∧ c'.data = c.data ∧ reader (.of c) = .ok (.ok (v, .of c'))

namespace Follows

variable {reader : Reader Savestate.Error α} {reader' : Savestate.Reader α}
  {next : α → Reader Savestate.Error β} {next' : α → Savestate.Reader β}

theorem pure (v : α) : Follows (pure v) (pure v) := fun c _ => .inr ⟨v, c, rfl, rfl, rfl⟩

theorem throw (e : Savestate.Error) :
    Follows (α := α) (MonadExcept.throw e) (MonadExcept.throw e) := fun _ _ => .inl ⟨e, rfl, rfl⟩

/-- What goes on may rely on what the first reader gives. -/
theorem bind_gives {P : α → Prop} (h : Follows reader reader') (hP : reader'.Gives P)
    (h' : ∀ v, P v → Follows (next v) (next' v)) :
    Follows (reader >>= next) (reader' >>= next') := by
  intro c hc
  obtain ⟨e, he', he⟩ | ⟨v, c', hv', hdata, hv⟩ := h c hc
  · exact .inl ⟨e, Savestate.Reader.bind_of_error he', bind_of_error he⟩
  · have hgo := h' v (hP c v c' hv') c' (hdata ▸ hc)
    rw [hdata] at hgo
    rw [Savestate.Reader.bind_of_ok hv', bind_of_ok hv]
    exact hgo

theorem bind (h : Follows reader reader') (h' : ∀ v, Follows (next v) (next' v)) :
    Follows (reader >>= next) (reader' >>= next') :=
  h.bind_gives (.trivial reader') fun v _ => h' v

theorem map (h : Follows reader reader') (f : α → β) :
    Follows (do return f (← reader)) (do return f (← reader')) := h.bind fun _ => pure _

/-- What was computed beforehand makes no difference. -/
theorem compute {x : Except Trap α} {v : α} (hx : x = .ok v) {next' : Savestate.Reader β}
    (h : Follows (next v) next') : Follows (Reader.compute x >>= next) next' := by
  intro c hc
  rw [bind_of_ok (compute_of_ok hx)]
  exact h c hc

theorem remaining : Follows remaining Savestate.Reader.remaining :=
  fun c _ => .inr ⟨c.remaining, c, rfl, rfl, remaining_of_le c.pos_le⟩

/-- Where there is not enough, the position to tell can be computed. -/
theorem require_of_not_le {c : Savestate.Cursor} {n : Nat} (hc : c.data.size < limit)
    (hn : n ≤ 3 * limit) (h : ¬c.pos + n ≤ c.data.size) :
    Reader.require n (.of c) = .ok (.error (.truncated (c.pos + n) c.data.size)) := by
  have hpos := c.pos_le
  have hlimit : 4 * limit ≤ UInt64.size := by decide
  exact require_of_lt hpos (Nat.not_le.1 h) (by simp only [Place.of]; omega)

/-- A reader that takes `n` bytes if they are there, and asks for them first. -/
theorem of_reads {n : Nat} {read : ByteArray → Nat → α} (h : Reads reader n read)
    (hn : n ≤ 3 * limit)
    (hasks : ∀ p e, Reader.require n p = .ok (.error e) → reader p = .ok (.error e)) :
    Follows reader (do let pos ← Savestate.Reader.advance n; return read (← get).data pos) := by
  intro c hc
  by_cases hle : c.pos + n ≤ c.data.size
  · have hadvance : Savestate.Reader.advance n c = .ok (c.pos, ⟨c.data, c.pos + n, hle⟩) :=
      dif_pos hle
    exact .inr ⟨_, _, Savestate.Reader.bind_of_ok hadvance, rfl, h.of_cursor hc hle⟩
  · have hadvance : Savestate.Reader.advance n c =
        .error (.truncated (c.pos + n) c.data.size) := dif_neg hle
    exact .inl ⟨_, Savestate.Reader.bind_of_error hadvance,
      hasks _ _ (require_of_not_le hc hn hle)⟩

theorem bytes {n : Nat} (hn : n ≤ 3 * limit) :
    Follows (Reader.bytes n) (Savestate.Reader.bytes n) :=
  of_reads (.bytes n) hn fun _ _ => bind_of_error

theorem item {layout : Layout α} (h : layout.Local) (hn : layout.size ≤ 3 * limit) :
    Follows (Reader.item layout) (Savestate.Reader.item layout) :=
  of_reads (.item h) hn fun _ _ he => bind_of_error (bind_of_error he)

/-- Once there is enough for all of a layout, it does not matter in which steps it is read. -/
theorem fixed {layout : Layout α} {n : Nat} (h : Reads reader layout.size layout.get)
    (hs : layout.size = n) (hn : n ≤ 3 * limit) (h' : ∀ v, Follows (next v) (next' v)) :
    Follows (do Reader.require n; let v ← reader; next v)
      (do Savestate.Reader.require n; let v ← Savestate.Reader.item layout; next' v) := by
  subst hs
  intro c hc
  by_cases hle : c.pos + layout.size ≤ c.data.size
  · have hrequire : Savestate.Reader.require layout.size c = .ok ((), c) := if_pos hle
    have hadvance : Savestate.Reader.advance layout.size c =
        .ok (c.pos, ⟨c.data, c.pos + layout.size, hle⟩) := dif_pos hle
    have hitem : Savestate.Reader.item layout c =
        .ok (layout.get c.data c.pos, ⟨c.data, c.pos + layout.size, hle⟩) :=
      Savestate.Reader.bind_of_ok hadvance
    have hchecked : Reader.require layout.size (.of c) = .ok (.ok ((), .of c)) := require_of_le hle
    rw [Savestate.Reader.bind_of_ok hrequire, Savestate.Reader.bind_of_ok hitem,
      bind_of_ok hchecked, bind_of_ok (h.of_cursor hc hle)]
    exact h' (layout.get c.data c.pos) ⟨c.data, c.pos + layout.size, hle⟩ hc
  · have hrequire : Savestate.Reader.require layout.size c =
        .error (.truncated (c.pos + layout.size) c.data.size) := if_neg hle
    exact .inl ⟨_, Savestate.Reader.bind_of_error hrequire,
      bind_of_error (require_of_not_le hc hn hle)⟩

theorem runOn (h : Follows reader reader') {data : ByteArray} (hsize : data.size < limit) :
    reader.runOn data = .ok (reader'.runOn data) := by
  have hr : reader'.runOn data = (·.1) <$> reader' (.start data) := rfl
  rw [hr]
  obtain ⟨e, he', he⟩ | ⟨v, c', hv', -, hv⟩ := h (.start data) hsize
  · rw [he']
    exact congrArg (Except.map (Except.map (·.1))) he
  · rw [hv']
    exact congrArg (Except.map (Except.map (·.1))) hv

end Follows

end Checked

end Rewind
