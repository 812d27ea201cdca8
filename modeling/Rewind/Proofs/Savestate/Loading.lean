import Rewind.Gzip.Member
import Rewind.Savestate.Encoding

/-!
What a savestate that decodes looks like from the front. Its ROM hash can be read on its own, and
when that is text, the savestate is not taken for compressed data (`decompress_of_romHash`).
-/

namespace Rewind

/-- Every byte of a block is an ASCII character, as in a digest in hexadecimal digits. -/
def Wire.Block.IsAscii (b : Block n) : Prop := ∀ c ∈ b.bytes.data, c < 0x80

instance (b : Wire.Block n) : Decidable b.IsAscii :=
  decidable_of_iff (b.bytes.data.toList.all (· < 0x80)) (by
    simp only [Wire.Block.IsAscii, List.all_eq_true, Array.mem_toList_iff, decide_eq_true_eq])

namespace Savestate

theorem Reader.bind_eq_ok {reader : Reader α} {next : α → Reader β} {c : Cursor} {r : β × Cursor}
    (h : (reader >>= next) c = .ok r) : ∃ a c', reader c = .ok (a, c') ∧ next a c' = .ok r := by
  have hb : (reader >>= next) c = reader c >>= fun p => next p.1 p.2 := rfl
  rw [hb] at h
  cases hr : reader c with
  | error e => rw [hr] at h; cases h
  | ok p => rw [hr] at h; exact ⟨p.1, p.2, rfl, h⟩

theorem Reader.bind_of_ok {reader : Reader α} {next : α → Reader β} {c c' : Cursor} {v : α}
    (h : reader c = .ok (v, c')) : (reader >>= next) c = next v c' := by
  have hb : (reader >>= next) c = reader c >>= fun p => next p.1 p.2 := rfl
  rw [hb, h]
  rfl

theorem Reader.bind_of_error {reader : Reader α} {next : α → Reader β} {c : Cursor} {e : Error}
    (h : reader c = .error e) : (reader >>= next) c = .error e := by
  have hb : (reader >>= next) c = reader c >>= fun p => next p.1 p.2 := rfl
  rw [hb, h]
  rfl

theorem Reader.runOn_eq_ok {reader : Reader α} {data : ByteArray} {v : α}
    (h : reader.runOn data = .ok v) : ∃ c, reader (.start data) = .ok (v, c) := by
  unfold Reader.runOn at h
  cases hr : reader (.start data) with
  | error e => rw [hr] at h; cases h
  | ok p => rw [hr] at h; cases h; exact ⟨p.2, rfl⟩

/-- The ROM hash in front of a savestate is the one of the machine in it. -/
theorem romHash_of_decode {data : ByteArray} {decoded : Decoded} (h : decode data = .ok decoded) :
    romHash data = .ok decoded.snapshot.romHash := by
  obtain ⟨c, hr⟩ := Reader.runOn_eq_ok h
  obtain ⟨hash, c₁, hhash, hr⟩ := Reader.bind_eq_ok hr
  obtain ⟨-, c₂, -, hr⟩ := Reader.bind_eq_ok hr
  obtain ⟨fixed, c₃, -, hr⟩ := Reader.bind_eq_ok hr
  obtain ⟨events, c₄, -, hr⟩ := Reader.bind_eq_ok hr
  obtain ⟨movie, c₅, -, hr⟩ := Reader.bind_eq_ok hr
  obtain ⟨screenshot, c₆, -, hr⟩ := Reader.bind_eq_ok hr
  cases hr
  rw [romHash, Reader.runOn, hhash]
  rfl

theorem romHash_eq_ok {data : ByteArray} {hash : Wire.Block Machine.romHashSize}
    (h : romHash data = .ok hash) : Machine.romHashSize ≤ data.size ∧
      hash.bytes = data.extract 0 Machine.romHashSize := by
  have hr : romHash data = (·.1) <$> ((Reader.advance hashLayout.size (.start data)) >>=
      fun (pos, c) => .ok (hashLayout.get c.data pos, c)) := rfl
  rw [hr] at h
  by_cases hs : 0 + hashLayout.size ≤ data.size
  · have ha : Reader.advance hashLayout.size (.start data) =
        .ok (0, ⟨data, 0 + hashLayout.size, hs⟩) := dif_pos hs
    rw [ha] at h
    have hg : hashLayout.get data 0 = hash := Except.ok.inj h
    have hs' : Machine.romHashSize ≤ data.size := hs
    refine ⟨hs', ?_⟩
    have hf : (data.extract 0 Machine.romHashSize).size = Machine.romHashSize := by
      rw [ByteArray.size_extract]; omega
    simp only [← hg, hashLayout, Wire.Layout.block, Wire.Block.ofBytes, Nat.zero_add,
      Bytes.fit_of_size hf]
  · have ha : Reader.advance hashLayout.size (.start data) =
        .error (.truncated (0 + hashLayout.size) data.size) := dif_neg hs
    rw [ha] at h
    cases h

/-- A savestate whose ROM hash is text is read as it is. -/
theorem decompress_of_romHash {data : ByteArray} {hash : Wire.Block Machine.romHashSize}
    (h : romHash data = .ok hash) (ha : hash.IsAscii) :
    data.isEmpty = false ∧ Gzip.decompress data = .ok data := by
  obtain ⟨hs, hb⟩ := romHash_eq_ok h
  have hs : 32 ≤ data.size := hs
  have hz : hash.bytes.size = 32 := hash.size_eq
  have hne : data.isEmpty = false := beq_false_of_ne (by omega)
  refine ⟨hne, ?_⟩
  -- The second byte of a member is no ASCII character.
  have hc : ¬ Gzip.isCompressed data = true := by
    intro hc
    have hm : data.extract 0 2 = Gzip.magic := of_decide_eq_true hc
    have h1 : hash.bytes[1] = 0x8B := by
      have hlt : 1 < (data.extract 0 2).size := by rw [hm]; decide
      have he : (data.extract 0 2)[1] = 0x8B := by simp only [hm]; rfl
      simp only [hb, ByteArray.getElem_extract] at he ⊢
      exact he
    have := ha hash.bytes[1] (Array.getElem_mem _)
    rw [h1] at this
    exact absurd this (by decide)
  rw [Gzip.decompress, if_neg hc]

end Savestate

end Rewind
