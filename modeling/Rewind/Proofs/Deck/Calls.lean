import Rewind.Deck.Drain
import Rewind.Deck.Seek

/-!
Runs of a deck: calls of its owner in any order, and between them whatever the machine, the files
and the user do on their own account. Main statements: what each happening keeps, as long as a run
goes by a rule, holds at the end of the run (`after_keeps`), and what each request keeps holds
wherever a drain passes (`Passes.keeps`).
-/

namespace Rewind

open Savestate (Job Medium Request prepare)
open Storage (Pathname)

/-- What the owner of a deck can do with it. -/
inductive Call
  | setReadOnly (readOnly : Bool)
  | setLaunched (launched : Bool)
  | selectSlot (slot : Nat)
  | saveSlot (slot : Nat)
  | loadSlot (slot : Nat)
  | saveFile (path : Pathname)
  | loadFile (path : Pathname) (ignoreWarnings : Bool)
  | saveMemory (id : UInt64)
  | loadMemory (state : ByteArray) (id : UInt64)
  | undoLoad
  /-- A request without a tag, put into the queue directly. -/
  | enqueue (job : Job) (medium : Medium) (ignoreWarnings : Bool)
  | drain
  | startRecording (now : UInt32) (path : Pathname) (flags : UInt16) (author description : String)
  | startPlayback (path : Pathname)
  | stopMovie
  | setAuthor (path : Pathname) (author description : String)
  | poll (index : Nat) (live : Sample)
  | vi
  | beginSeek (text : String) (pauseAtEnd : Bool)
  | stopSeek
  | beginWarp (inputs : Array Sample)

/-- What can happen to a deck. -/
inductive Happening (M H D : Type)
  | call (c : Call)
  /-- The machine goes on, the user acts on the frontend, and others write files. -/
  | outside (machine : M) (frontend : H → H) (disk : D)

namespace Deck

variable {M H D : Type} [Core M] [Frontend H] [Storage D]

/-- The deck after a call. -/
def call : Call → Deck M H D → Deck M H D
  | .setReadOnly readOnly, d => { d with config.readOnly := readOnly }
  | .setLaunched launched, d => d.setLaunched launched
  | .selectSlot slot, d => d.selectSlot slot
  | .saveSlot slot, d => (d.saveSlot slot).2
  | .loadSlot slot, d => (d.loadSlot slot).2
  | .saveFile path, d => (d.saveFile path).2
  | .loadFile path ignoreWarnings, d => (d.loadFile path ignoreWarnings).2
  | .saveMemory id, d => (d.saveMemory id).2
  | .loadMemory state id, d => (d.loadMemory state id).2
  | .undoLoad, d => d.undoLoad.2
  | .enqueue job medium ignoreWarnings, d => (d.enqueue { job, medium, ignoreWarnings }).2
  | .drain, d => d.drain.2
  | .startRecording now path flags author description, d =>
    (d.startRecording now path flags author description).2
  | .startPlayback path, d => (d.startPlayback path).2
  | .stopMovie, d => d.stopMovie.2
  | .setAuthor path author description, d => (d.setAuthor path author description).2
  | .poll index live, d => (d.poll index live).2
  | .vi, d => d.vi
  | .beginSeek text pauseAtEnd, d => (d.beginSeek text pauseAtEnd).2
  | .stopSeek, d => d.stopSeek
  | .beginWarp inputs, d => (d.beginWarp inputs).2

/-- The deck after something happened to it. -/
def undergo : Happening M H D → Deck M H D → Deck M H D
  | .call c, d => d.call c
  | .outside machine frontend disk, d => { d with machine, frontend := frontend d.frontend, disk }

/-- The deck after a run. -/
def after : List (Happening M H D) → Deck M H D → Deck M H D
  | [], d => d
  | h :: hs, d => after hs (d.undergo h)

/-- Everything in a run goes by a rule. -/
def Along (rule : Deck M H D → Happening M H D → Prop) :
    List (Happening M H D) → Deck M H D → Prop
  | [], _ => True
  | h :: hs, d => rule d h ∧ Along rule hs (d.undergo h)

/-- What each happening keeps holds after a run. -/
theorem after_keeps {rule : Deck M H D → Happening M H D → Prop} (Good : Deck M H D → Prop)
    (hstep : ∀ d h, Good d → rule d h → Good (d.undergo h)) {hs : List (Happening M H D)}
    {d : Deck M H D} (hd : Good d) (hrun : Along rule hs d) : Good (d.after hs) := by
  induction hs generalizing d with
  | nil => exact hd
  | cons happening hs ih => exact ih (hstep d happening hd hrun.1) hrun.2

/-! ## In the middle of a drain -/

/-- A drain passes a deck, where the given requests of its batch are still to be carried out. -/
inductive Passes (d : Deck M H D) : List Request → Deck M H D → Prop
  | start : Passes d [] d
  | batch {e : Deck M H D} : Passes d [] e →
    Passes d (prepare e.queue.pending e.config.undoOnLoad) { e with queue := e.queue.clear }
  | request {r : Request} {rest : List Request} {e : Deck M H D} :
    Passes d (r :: rest) e → Passes d rest (e.perform r).2

theorem Passes.performAll {d e : Deck M H D} {rs : List Request} (h : Passes d rs e) :
    Passes d [] (e.performAll rs).2 := by
  induction rs generalizing e with
  | nil => exact h
  | cons r rs ih => exact ih h.request

/-- A drain passes the deck that it ends with. -/
theorem passes_drain (d : Deck M H D) : Passes d [] d.drain.2 := by
  suffices h : ∀ e : Deck M H D, Passes d [] e → Passes d [] e.drain.2 from h d .start
  intro e he
  induction e using drain.induct with
  | case1 e hp => rwa [drain, if_pos hp]
  | case2 e hp _ _ _ ih =>
    rw [drain, if_neg hp]
    exact ih he.batch.performAll

/-- When a drain ends, nothing is pending. -/
theorem pending_drain (d : Deck M H D) : d.drain.2.queue.pending = [] := by
  induction d using drain.induct with
  | case1 d hp => rwa [drain, if_pos hp]
  | case2 d hp _ _ _ ih =>
    rw [drain, if_neg hp]
    exact ih

/-- What each request keeps holds wherever a drain passes. What is kept may say something about the
requests still to be carried out. -/
theorem Passes.keeps (Good : List Request → Deck M H D → Prop)
    (hbatch : ∀ d : Deck M H D, Good [] d →
      Good (prepare d.queue.pending d.config.undoOnLoad) { d with queue := d.queue.clear })
    (hrequest : ∀ r rest d, Good (r :: rest) d → Good rest (d.perform r).2)
    {d e : Deck M H D} {rest : List Request} (hd : Good [] d) (h : Passes d rest e) :
    Good rest e := by
  induction h with
  | start => exact hd
  | batch _ ih => exact hbatch _ ih
  | request _ ih => exact hrequest _ _ _ ih

end Deck

end Rewind
