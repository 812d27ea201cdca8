import Rewind.Proofs.Deck.Requests
import Rewind.Storage.Tree

/-!
Loads that fail. A load asks about everything that speaks against it before it touches anything, so
one that fails leaves the deck as it was. Main statement: the frontend was asked questions and heard
nothing, and the machine was at most told again where it goes on from (`loadState_error`).
-/

namespace Rewind

open Savestate

/-- A frontend after questions were put to it. -/
def Frontend.questioned {H : Type} [Frontend H] (messages : List String) (h : H) : H :=
  messages.foldl (fun h message => (Frontend.confirm message h).2) h

namespace Deck

variable {M H D : Type} [Frontend H]

/-- The deck after questions were put to the user. -/
def questioned (messages : List String) (d : Deck M H D) : Deck M H D :=
  { d with frontend := Frontend.questioned messages d.frontend }

theorem questioned_questioned (messages more : List String) (d : Deck M H D) :
    (d.questioned messages).questioned more = d.questioned (messages ++ more) := by
  simp only [questioned, Frontend.questioned, List.foldl_append]

/-- A question is put to the user, unless the deck is silent. -/
theorem confirm_eq (message : String) (d : Deck M H D) :
    (d.confirm message).2 = d ∨ (d.confirm message).2 = d.questioned [message] := by
  unfold confirm
  split
  · exact .inl rfl
  · exact .inr rfl

theorem ask_eq (message : String) (d : Deck M H D) :
    ∃ messages, (d.ask message).2 = d.questioned messages := by
  have hasked : (d.ask message).2 = (d.confirm message).2 := by
    unfold ask
    generalize d.confirm message = answered
    obtain ⟨yes, d'⟩ := answered
    cases yes <;> rfl
  obtain hd | hd := confirm_eq message d
  · exact ⟨[], hasked.trans hd⟩
  · exact ⟨[message], hasked.trans hd⟩

theorem admitPosition_eq (position : Option Movie.Freeze) (ignoreWarnings : Bool)
    (mode : Option Movie.RestoreMode) (d : Deck M H D) :
    ∃ messages, (d.admitPosition position ignoreWarnings mode).2 = d.questioned messages := by
  unfold admitPosition
  split
  · exact ⟨[], rfl⟩
  · split
    · exact ⟨[], rfl⟩
    · split
      · exact ask_eq _ d
      · exact ⟨[], rfl⟩
  · split
    · exact ask_eq _ d
    · exact ⟨[], rfl⟩

variable [Core M] [Storage D]

/-- Once a position was admitted, nothing refuses the state any more. -/
theorem loadDecoded_error {data : ByteArray} {ignoreWarnings : Bool}
    {mode : Option Movie.RestoreMode} {d : Deck M H D} {e : Error}
    (h : (d.loadDecoded data ignoreWarnings mode).1 = .error e) :
    ∃ messages, (d.loadDecoded data ignoreWarnings mode).2 = d.questioned messages := by
  unfold loadDecoded at h ⊢
  cases hdecode : decode data with
  | error e => exact ⟨[], rfl⟩
  | ok decoded =>
    obtain ⟨messages, hd⟩ := admitPosition_eq decoded.snapshot.movie ignoreWarnings mode d
    refine ⟨messages, ?_⟩
    rw [hdecode] at h
    simp only at h ⊢
    rw [← hd]
    generalize d.admitPosition decoded.snapshot.movie ignoreWarnings mode = admitted at h ⊢
    obtain ⟨position, d'⟩ := admitted
    cases position with
    | error e => rfl
    | ok position => cases h

/-- A state of the cartridge fails to load if its position is not admitted. -/
theorem loadState_of_admitPosition_error {state : ByteArray} {decoded : Decoded}
    {mode : Option Movie.RestoreMode} {d : Deck M H D} {e : Error}
    (h : decode state = .ok decoded) (ha : decoded.snapshot.romHash.IsAscii)
    (hrom : decoded.snapshot.romHash = (Core.rom d.machine).md5)
    (he : (d.admitPosition decoded.snapshot.movie false mode).1 = .error e) :
    (d.loadState (.memory state) false mode).1 = .error e := by
  have hl : (d.loadDecoded state false mode).1 = .error e := by
    rw [loadDecoded, h]
    simp only
    generalize d.admitPosition decoded.snapshot.movie false mode = admitted at he
    obtain ⟨position, d'⟩ := admitted
    obtain rfl : position = .error e := he
    rfl
  have hne : (decoded.snapshot.romHash != (Core.rom d.machine).md5) = false := by
    rw [hrom]
    exact bne_self_eq_false _
  rw [loadState, fetchState_memory h ha]
  simp only [hne, Bool.and_false, Bool.false_eq_true, ↓reduceIte]
  exact hl

/-- **A load that fails changes nothing.** Whatever it was to load from, and however it failed: the
movie, the checkpoints, the seek, the warp, the queue, the files and all else are as before, and so
is the frontend but for the questions put to it. The machine has taken over nothing; if it was the
state itself that was refused, it heard whether it goes on from the legacy entry, as it is. -/
theorem loadState_error {medium : Medium} {ignoreWarnings : Bool}
    {mode : Option Movie.RestoreMode} {d : Deck M H D} {e : Error}
    (h : (d.loadState medium ignoreWarnings mode).1 = .error e) :
    ∃ messages, (d.loadState medium ignoreWarnings mode).2 = d.questioned messages ∨
      (d.loadState medium ignoreWarnings mode).2 = (d.questioned messages).settleEntry := by
  unfold loadState at h ⊢
  cases hfetch : d.fetchState medium with
  | error e => exact ⟨[], .inl rfl⟩
  | ok fetched =>
    obtain ⟨data, hash⟩ := fetched
    rw [hfetch] at h
    simp only at h ⊢
    have hasked (foreign : Bool) : ∃ messages,
        (if foreign then d.ask (foreignRomMessage hash) else (.ok (), d)).2 =
          d.questioned messages := by
      cases foreign with
      | false => exact ⟨[], rfl⟩
      | true => exact ask_eq _ d
    -- The question about another cartridge comes before the state is decoded.
    obtain ⟨messages, hd⟩ := hasked (!ignoreWarnings && hash != (Core.rom d.machine).md5)
    generalize (if (!ignoreWarnings && hash != (Core.rom d.machine).md5) = true then
      d.ask (foreignRomMessage hash) else (.ok (), d)) = asked at h hd ⊢
    obtain ⟨go, d'⟩ := asked
    obtain rfl : d' = d.questioned messages := hd
    cases go with
    | error e => exact ⟨messages, .inl rfl⟩
    | ok =>
      obtain ⟨more, hmore⟩ := loadDecoded_error h
      refine ⟨messages ++ more, .inr ?_⟩
      rw [← questioned_questioned, ← hmore]

/-- A movie is recorded on an accumulator, and whatever its user is asked, the answer is no. -/
def declining : Deck Machine.Accumulator Journal Storage.Tree :=
  { Session.new {} with
    movie := { task := .recording, header.uid := 7 }
    machine :=
      { rom := ⟨"ACCUMULATOR", 0, 0, .ofBytes _ "0123456789abcdef0123456789abcdef".toUTF8⟩
        state := Machine.Accumulator.powerOn }
    frontend := { accept := false }
    disk := {} }

/-- The same machine, but at the start of another movie. -/
def otherMovie : Machine.Snapshot := Core.captureAt (.ofInputs 8 0 0 #[]) declining.machine

theorem loadState_error_declined :
    let loaded := declining.loadState (.memory (stateBytes otherMovie false)) false (some .readOnly)
    loaded.1 = .error .cancelled ∧
      ∃ messages, loaded.2 = declining.questioned messages ∨
        loaded.2 = (declining.questioned messages).settleEntry := by
  have hascii : declining.machine.rom.md5.IsAscii := by decide
  have hf : (Movie.Freeze.ofInputs 8 0 0 #[]).inputs.size = 0 + 1 := rfl
  have hs : otherMovie.Savable :=
    Machine.Accumulator.Sound.savable_captureAt (.of_reset hascii) hf
  have hm : otherMovie.movie = some (.ofInputs 8 0 0 #[]) := rfl
  have hdeclined :
      (declining.admitPosition otherMovie.movie false (some .readOnly)).1 = .error .cancelled := by
    rw [hm]
    rfl
  have herror := loadState_of_admitPosition_error hs.decode_eq hascii rfl hdeclined
  exact ⟨herror, loadState_error herror⟩

end Deck

end Rewind
