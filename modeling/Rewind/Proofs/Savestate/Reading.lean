import Rewind.Proofs.Wire.LayoutLaws
import Rewind.Savestate.Reader

/-!
What readers take. `Reader.Takes reader w rest v` says that in front of `w` and then `rest` the
reader takes exactly `w` and gives `v`, whatever was read before. `rest` is part of the statement
because a reader may look at how much is left. Sequencing readers concatenates what they take
(`Takes.bind`).
-/

namespace Rewind.Savestate

/-- The place behind `front` and in front of `rest`. -/
def Cursor.between (front rest : ByteArray) : Cursor := ⟨front ++ rest, front.size, by simp⟩

namespace Reader

/-- In front of `w` and `rest`, the reader takes `w` and gives `v`. -/
def Takes (reader : Reader α) (w rest : ByteArray) (v : α) : Prop :=
  ∀ front, reader (.between front (w ++ rest)) = .ok (v, .between (front ++ w) rest)

theorem Takes.pure (v : α) (rest : ByteArray) : Takes (pure v) ByteArray.empty rest v := by
  intro front
  simp only [ByteArray.empty_append, ByteArray.append_empty]
  rfl

/-- What follows a reader goes on behind what it took. -/
theorem Takes.bind_eq {reader : Reader α} {w rest : ByteArray} {a : α} (h : Takes reader w rest a)
    (next : α → Reader β) (front : ByteArray) :
    (reader >>= next) (.between front (w ++ rest)) = next a (.between (front ++ w) rest) := by
  have hr : (reader >>= next) (.between front (w ++ rest)) =
      reader (.between front (w ++ rest)) >>= fun (x, c) => next x c := rfl
  rw [hr, h front]
  rfl

theorem Takes.bind {reader : Reader α} {next : α → Reader β} {w w' rest : ByteArray} {a : α} {b : β}
    (h : Takes reader w (w' ++ rest) a) (h' : Takes (next a) w' rest b) :
    Takes (reader >>= next) (w ++ w') rest b := by
  intro front
  rw [ByteArray.append_assoc, h.bind_eq, h', ByteArray.append_assoc]

/-- A reader that takes nothing in front of another one. -/
theorem Takes.bind_nothing {reader : Reader α} {next : α → Reader β} {w rest : ByteArray}
    {a : α} {b : β} (h : Takes reader ByteArray.empty (w ++ rest) a)
    (h' : Takes (next a) w rest b) : Takes (reader >>= next) w rest b := by
  have hb := h.bind h'
  rwa [ByteArray.empty_append] at hb

/-- A reader behind which nothing more is taken. -/
theorem Takes.bind_last {reader : Reader α} {next : α → Reader β} {w rest : ByteArray}
    {a : α} {b : β} (h : Takes reader w rest a) (h' : Takes (next a) ByteArray.empty rest b) :
    Takes (reader >>= next) w rest b := by
  have hb : Takes (reader >>= next) (w ++ ByteArray.empty) rest b :=
    bind (by rwa [ByteArray.empty_append]) h'
  rwa [ByteArray.append_empty] at hb

theorem Takes.map {reader : Reader α} {w rest : ByteArray} {a : α} (h : Takes reader w rest a)
    {f : α → β} {b : β} (hf : f a = b) : Takes (do return f (← reader)) w rest b := by
  subst hf
  exact h.bind_last (.pure _ _)

theorem Takes.advance {w : ByteArray} {n : Nat} (h : w.size = n) (rest front : ByteArray) :
    advance n (.between front (w ++ rest)) = .ok (front.size, .between (front ++ w) rest) := by
  subst h
  simp [Reader.advance, Cursor.between, ByteArray.append_assoc]

theorem Takes.item {layout : Wire.Layout α} {v v' : α} (h : layout.ReadsAs v v')
    (rest : ByteArray) : Takes (item layout) (layout.bytes v) rest v' := by
  intro front
  have hr : Reader.item layout (.between front (layout.bytes v ++ rest)) =
      (Reader.advance layout.size (.between front (layout.bytes v ++ rest))) >>=
        fun (pos, c) => .ok (layout.get c.data pos, c) := rfl
  rw [hr, Takes.advance h.size_bytes]
  have hg := h.get_bytes front rest
  rw [← ByteArray.append_assoc] at hg
  exact congrArg (fun v => Except.ok (v, _)) hg

theorem Takes.bytes {w : ByteArray} {n : Nat} (h : w.size = n) (rest : ByteArray) :
    Takes (bytes n) w rest w := by
  intro front
  have hr : Reader.bytes n (.between front (w ++ rest)) =
      (Reader.advance n (.between front (w ++ rest))) >>=
        fun (pos, c) => .ok (c.data.extract pos (pos + n), c) := rfl
  rw [hr, Takes.advance h]
  have hx := Wire.Layout.extract_middle h front rest
  rw [← ByteArray.append_assoc] at hx
  exact congrArg (fun v => Except.ok (v, _)) hx

theorem Takes.require {rest : ByteArray} {n : Nat} (h : n ≤ rest.size) :
    Takes (require n) ByteArray.empty rest () := by
  intro front
  simp [Reader.require, Cursor.between, h]

theorem Takes.remaining (rest : ByteArray) :
    Takes remaining ByteArray.empty rest rest.size := by
  intro front
  have hr : Reader.remaining (.between front (ByteArray.empty ++ rest)) =
      .ok ((Cursor.between front (ByteArray.empty ++ rest)).remaining,
        .between front (ByteArray.empty ++ rest)) := rfl
  rw [hr]
  simp [Cursor.between, Cursor.remaining]

/-- What is left is too little. -/
theorem advance_of_lt {rest : ByteArray} {n : Nat} (h : rest.size < n) (front : ByteArray) :
    Reader.advance n (.between front rest) =
      .error (.truncated (front.size + n) (front.size + rest.size)) := by
  have hle : ¬front.size + n ≤ front.size + rest.size := by omega
  simp [Reader.advance, Cursor.between, hle]

theorem Takes.runOn {reader : Reader α} {w rest : ByteArray} {v : α} (h : Takes reader w rest v) :
    reader.runOn (w ++ rest) = .ok v := by
  have hs : Cursor.start (w ++ rest) = .between ByteArray.empty (w ++ rest) := by
    simp [Cursor.start, Cursor.between]
  rw [Reader.runOn, hs, h]
  rfl

/-! ## Readers that do not look back -/

/-- What the reader makes of what is ahead depends on how much was read before, and on nothing in
it. -/
def Blind (reader : Reader α) : Prop :=
  ∀ front front' rest : ByteArray, front'.size = front.size →
    (∃ e, reader (.between front rest) = .error e ∧ reader (.between front' rest) = .error e) ∨
    ∃ v taken left, reader (.between front rest) = .ok (v, .between (front ++ taken) left) ∧
      reader (.between front' rest) = .ok (v, .between (front' ++ taken) left)

theorem Blind.of_takes {reader : Reader α} {w rest : ByteArray} {v : α}
    (h : Takes reader w rest v) (front front' : ByteArray) :
    ∃ v taken left,
      reader (.between front (w ++ rest)) = .ok (v, .between (front ++ taken) left) ∧
      reader (.between front' (w ++ rest)) = .ok (v, .between (front' ++ taken) left) :=
  ⟨v, w, rest, h front, h front'⟩

theorem Blind.pure (v : α) : Blind (pure v) := by
  intro front front' rest h
  have ht := Blind.of_takes (Takes.pure v rest) front front'
  rw [ByteArray.empty_append] at ht
  exact .inr ht

theorem Blind.throw (e : Error) : Blind (α := α) (MonadExcept.throw e) :=
  fun _ _ _ _ => .inl ⟨e, rfl, rfl⟩

theorem Blind.bind {reader : Reader α} {next : α → Reader β} (h : Blind reader)
    (h' : ∀ a, Blind (next a)) : Blind (reader >>= next) := by
  intro front front' rest hsize
  have hb (c : Cursor) : (reader >>= next) c = reader c >>= fun (x, c) => next x c := rfl
  rw [hb, hb]
  obtain ⟨e, he, he'⟩ | ⟨v, taken, left, hv, hv'⟩ := h front front' rest hsize
  · rw [he, he']
    exact .inl ⟨e, rfl, rfl⟩
  · rw [hv, hv']
    have hsize : (front' ++ taken).size = (front ++ taken).size := by
      rw [ByteArray.size_append, ByteArray.size_append, hsize]
    obtain he | ⟨v, taken', left', hv, hv'⟩ := h' v _ _ left hsize
    · exact .inl he
    · refine .inr ⟨v, taken ++ taken', left', ?_, ?_⟩
      · rw [← ByteArray.append_assoc]; exact hv
      · rw [← ByteArray.append_assoc]; exact hv'

theorem Blind.map {reader : Reader α} (h : Blind reader) (f : α → β) :
    Blind (do return f (← reader)) := h.bind fun _ => .pure _

theorem Blind.remaining : Blind remaining := by
  intro front front' rest hsize
  have ht := Blind.of_takes (Takes.remaining rest) front front'
  rw [ByteArray.empty_append] at ht
  exact .inr ht

/-- A reader of `n` bytes, which takes them if they are there. -/
theorem Blind.of_advance {reader : Reader α} {n : Nat}
    (hle : ∀ {w : ByteArray}, w.size = n → ∀ rest, ∃ v, Takes reader w rest v)
    (hlt : ∀ c e, Reader.advance n c = .error e → reader c = .error e) : Blind reader := by
  intro front front' rest hsize
  by_cases hn : rest.size < n
  · refine .inl ⟨_, hlt _ _ (advance_of_lt hn front), ?_⟩
    rw [← hsize]
    exact hlt _ _ (advance_of_lt hn front')
  · have hs : (rest.extract 0 n).size = n := by rw [ByteArray.size_extract]; omega
    obtain ⟨v, ht⟩ := hle hs (rest.extract n rest.size)
    have hsplit : rest.extract 0 n ++ rest.extract n rest.size = rest := by
      rw [← ByteArray.extract_eq_extract_append_extract n (Nat.zero_le _) (Nat.le_of_not_lt hn),
        ByteArray.extract_zero_size]
    have ht := Blind.of_takes ht front front'
    rw [hsplit] at ht
    exact .inr ht

theorem Blind.bytes (n : Nat) : Blind (bytes n) := by
  refine .of_advance (n := n) (fun h rest => ⟨_, Takes.bytes h rest⟩) fun c e h => ?_
  have hb : Reader.bytes n c = Reader.advance n c >>=
    fun (pos, c) => .ok (c.data.extract pos (pos + n), c) := rfl
  rw [hb, h]
  rfl

theorem Blind.item {layout : Wire.Layout α} (hr : ∀ v, layout.ReadsAs v v)
    (hl : layout.Lossless) : Blind (item layout) := by
  refine .of_advance (n := layout.size) (fun {w} h rest => ?_) fun c e h => ?_
  · have hw : layout.bytes (layout.get w 0) = w := by
      rw [hl (by omega), Nat.zero_add, ← h, ByteArray.extract_zero_size]
    have ht := Takes.item (hr (layout.get w 0)) rest
    rw [hw] at ht
    exact ⟨_, ht⟩
  · have hb : Reader.item layout c = Reader.advance layout.size c >>=
      fun (pos, c) => .ok (layout.get c.data pos, c) := rfl
    rw [hb, h]
    rfl

end Reader

end Rewind.Savestate
