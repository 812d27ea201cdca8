import Rewind.Storage.Fault
import Rewind.Storage.Pathname

/-!
Access to files. `Storage D` is access to files kept in a value of type `D`, where reading leaves
the value alone; `Files m` is access from a program in the monad `m`. Every storage gives access
to the programs that carry it as their state.
-/

namespace Rewind

open Storage (Fault Pathname)

/-- Files kept in a value of type `D`. A failed operation may have changed the value as well. -/
class Storage (D : Type) where
  /-- The contents of a file. -/
  read : Pathname → D → Except Fault ByteArray
  /-- Creates a file, or replaces the contents of an existing one. -/
  write : Pathname → ByteArray → D → Except Fault Unit × D
  /-- Replaces the first bytes of an existing file. -/
  patch : Pathname → ByteArray → D → Except Fault Unit × D
  /-- Creates a directory and those that lead to it, as far as they do not exist. -/
  createDirectories : Pathname → D → Except Fault Unit × D

/-- Files within reach of a program in `m`. -/
class Files (m : Type → Type) where
  read : Pathname → m (Except Fault ByteArray)
  write : Pathname → ByteArray → m (Except Fault Unit)
  patch : Pathname → ByteArray → m (Except Fault Unit)

instance [Storage D] : Files (StateM D) where
  read path := fun d => (Storage.read path d, d)
  write path data := Storage.write path data
  patch path data := Storage.patch path data

end Rewind
