import Rewind.Proofs.Deck.FailedLoads
import Rewind.Proofs.Deck.QuietLoads

/-!
What comes of a load. Nothing but questions happens before a state is taken over, and only the user
declines (`loadState_of_fetch`, `loadDecoded_of_decode`). So a load of what can be read is declined
or goes through (`loadState_of_decode`), and one that succeeds has put the deck into the state that
it gives (`loadState_ok`).
-/

namespace Rewind.Deck

open Savestate

variable {M H D : Type} [Frontend H] {d : Deck M H D}

theorem ask_cases (message : String) (d : Deck M H D) : ∃ messages,
    d.ask message = (.error .cancelled, d.questioned messages) ∨
      d.ask message = (.ok (), d.questioned messages) := by
  obtain ⟨messages, hd⟩ := ask_eq message d
  have hresult : (d.ask message).1 = .error .cancelled ∨ (d.ask message).1 = .ok () := by
    unfold ask
    split
    · exact .inr rfl
    · exact .inl rfl
  exact ⟨messages, hresult.imp (Prod.ext · hd) (Prod.ext · hd)⟩

/-- A position that is lost is let go, unless the user declines. -/
theorem letGo_cases (b : Bool) (message : String) (d : Deck M H D) : ∃ messages,
    let answered : Except Error (Option (Movie.Freeze × Movie.RestoreMode)) × Deck M H D :=
      if b = true then
        let (go, d) := d.ask message
        (go.map fun _ => none, d)
      else (.ok none, d)
    answered = (.error .cancelled, d.questioned messages) ∨
      answered = (.ok none, d.questioned messages) := by
  cases b with
  | false => exact ⟨[], .inr rfl⟩
  | true =>
    simp only [↓reduceIte]
    obtain ⟨messages, hdeclined | hagreed⟩ := ask_cases message d
    · rw [hdeclined]
      exact ⟨messages, .inl rfl⟩
    · rw [hagreed]
      exact ⟨messages, .inr rfl⟩

/-- The position is restored if it is admitted, unless the user declines. -/
theorem admitPosition_cases (position : Option Movie.Freeze) (ignoreWarnings : Bool)
    (mode : Option Movie.RestoreMode) (d : Deck M H D) : ∃ messages,
    d.admitPosition position ignoreWarnings mode = (.error .cancelled, d.questioned messages) ∨
      d.admitPosition position ignoreWarnings mode =
        (.ok (d.movie.admitted position mode), d.questioned messages) := by
  cases mode with
  | none => cases position <;> exact ⟨[], .inr rfl⟩
  | some mode =>
    cases position with
    | none => exact letGo_cases _ _ d
    | some freeze =>
      unfold admitPosition Movie.Log.admitted
      cases hc : d.movie.checkFreeze freeze mode with
      | ok =>
        simp only [hc]
        exact ⟨[], .inr rfl⟩
      | error cause =>
        simp only [hc]
        exact letGo_cases _ _ d

variable [Core M] [Storage D]

theorem loadDecoded_of_error {data : ByteArray} {e : Error} (hdecode : decode data = .error e)
    (ignoreWarnings : Bool) (mode : Option Movie.RestoreMode) (d : Deck M H D) :
    d.loadDecoded data ignoreWarnings mode = (.error e, d) := by
  rw [loadDecoded, hdecode]

/-- A state that can be read is declined, or goes through. -/
theorem loadDecoded_of_decode {data : ByteArray} {decoded : Decoded}
    (hdecode : decode data = .ok decoded) (ignoreWarnings : Bool)
    (mode : Option Movie.RestoreMode) (d : Deck M H D) : ∃ messages,
    d.loadDecoded data ignoreWarnings mode = (.error .cancelled, d.questioned messages) ∨
      d.loadDecoded data ignoreWarnings mode =
        (.ok data, (d.questioned messages).applyState decoded
          (d.movie.admitted decoded.snapshot.movie mode)) := by
  unfold loadDecoded
  rw [hdecode]
  obtain ⟨messages, hdeclined | hagreed⟩ :=
    admitPosition_cases decoded.snapshot.movie ignoreWarnings mode d
  · simp only [hdeclined]
    exact ⟨messages, .inl rfl⟩
  · simp only [hagreed]
    exact ⟨messages, .inr rfl⟩

/-- A load of what is there is declined over its cartridge, or goes on to read it. -/
theorem loadState_of_fetch {medium : Medium} {data : ByteArray}
    {hash : Wire.Block Machine.romHashSize} (hfetch : d.fetchState medium = .ok (data, hash))
    (ignoreWarnings : Bool) (mode : Option Movie.RestoreMode) : ∃ messages,
    d.loadState medium ignoreWarnings mode = (.error .cancelled, d.questioned messages) ∨
      d.loadState medium ignoreWarnings mode =
        (((d.questioned messages).loadDecoded data ignoreWarnings mode).1,
          ((d.questioned messages).loadDecoded data ignoreWarnings mode).2.settleEntry) := by
  have hasked (foreign : Bool) : ∃ messages,
      let asked := if foreign then d.ask (foreignRomMessage hash) else (.ok (), d)
      asked = (.error .cancelled, d.questioned messages) ∨
        asked = (.ok (), d.questioned messages) := by
    cases foreign with
    | false => exact ⟨[], .inr rfl⟩
    | true => exact ask_cases _ d
  obtain ⟨messages, hdeclined | hagreed⟩ :=
    hasked (!ignoreWarnings && hash != (Core.rom d.machine).md5)
  · unfold loadState
    rw [hfetch]
    simp only [hdeclined]
    exact ⟨messages, .inl rfl⟩
  · unfold loadState
    rw [hfetch]
    simp only [hagreed]
    exact ⟨messages, .inr rfl⟩

/-- A load of what can be read is declined, or goes through. -/
theorem loadState_of_decode {medium : Medium} {data : ByteArray}
    {hash : Wire.Block Machine.romHashSize} (hfetch : d.fetchState medium = .ok (data, hash))
    {decoded : Decoded} (hdecode : decode data = .ok decoded) (ignoreWarnings : Bool)
    (mode : Option Movie.RestoreMode) :
    (d.loadState medium ignoreWarnings mode).1 = .error .cancelled ∨
      ∃ messages, d.loadState medium ignoreWarnings mode =
        (.ok data, ((d.questioned messages).applyState decoded
          (d.movie.admitted decoded.snapshot.movie mode)).settleEntry) := by
  obtain ⟨messages, hdeclined | hread⟩ := loadState_of_fetch hfetch ignoreWarnings mode
  · exact .inl (congrArg Prod.fst hdeclined)
  · obtain ⟨more, hdeclined | hloaded⟩ :=
      loadDecoded_of_decode hdecode ignoreWarnings mode (d.questioned messages)
    · rw [hread, hdeclined]
      exact .inl rfl
    · rw [hread, hloaded, questioned_questioned]
      exact .inr ⟨messages ++ more, rfl⟩

/-- A load that succeeds has read a state, and has put the deck into it. -/
theorem loadState_ok {medium : Medium} {ignoreWarnings : Bool} {mode : Option Movie.RestoreMode}
    {data : ByteArray} (h : (d.loadState medium ignoreWarnings mode).1 = .ok data) :
    ∃ decoded messages, decode data = .ok decoded ∧ (d.loadState medium ignoreWarnings mode).2 =
      ((d.questioned messages).applyState decoded
        (d.movie.admitted decoded.snapshot.movie mode)).settleEntry := by
  cases hfetch : d.fetchState medium with
  | error e =>
    rw [loadState, hfetch] at h
    cases h
  | ok fetched =>
    obtain ⟨data', hash⟩ := fetched
    cases hdecode : decode data' with
    | error e =>
      obtain ⟨messages, hloaded | hloaded⟩ := loadState_of_fetch hfetch ignoreWarnings mode
      · rw [hloaded] at h
        cases h
      · rw [hloaded, loadDecoded_of_error hdecode] at h
        cases h
    | ok decoded =>
      obtain hdeclined | ⟨messages, hloaded⟩ :=
        loadState_of_decode hfetch hdecode ignoreWarnings mode
      · cases hdeclined.symm.trans h
      · rw [hloaded] at h ⊢
        cases h
        exact ⟨decoded, messages, hdecode, rfl⟩

end Rewind.Deck
