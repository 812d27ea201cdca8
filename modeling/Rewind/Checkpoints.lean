/-!
Checkpoints: savestates by the sample at which they were made, for going back in a movie. When
there are too many, the earliest go first; only the one at sample 0 always stays, so that there is
always a way back. Main statement: the entries are in the order of their samples, each sample once
(a field of the type).
-/

namespace Rewind

/-- Savestates by sample. -/
structure Checkpoints where
  /-- The distance of periodic checkpoints; 0 for none. -/
  interval : Nat
  maxCount : Nat
  entries : List (Nat × ByteArray)
  sorted : entries.Pairwise (·.1 < ·.1)

namespace Checkpoints

/-- A store that holds nothing. -/
def empty (interval maxCount : Nat) : Checkpoints := ⟨interval, maxCount, [], .nil⟩

/-- The samples held, in order. -/
def samples (s : Checkpoints) : List Nat := s.entries.map (·.1)

/-- Whether there is a checkpoint at a sample. -/
def contains (s : Checkpoints) (sample : Nat) : Bool := s.entries.any (·.1 == sample)

/-- Whether a periodic checkpoint belongs at a sample and is not there. -/
def isDue (s : Checkpoints) (sample : Nat) : Bool :=
  s.interval != 0 && sample % s.interval == 0 && !s.contains sample

/-- How many entries can stay. -/
def room (s : Checkpoints) : Nat := max s.maxCount 1

/-- Sorted entries with the one at `sample` put in or replaced. -/
def insertEntry (entries : List (Nat × ByteArray)) (sample : Nat) (state : ByteArray) :
    List (Nat × ByteArray) :=
  entries.filter (·.1 < sample) ++ (sample, state) :: entries.filter (sample < ·.1)

theorem sorted_insertEntry {entries : List (Nat × ByteArray)}
    (h : entries.Pairwise (·.1 < ·.1)) (sample : Nat) (state : ByteArray) :
    (insertEntry entries sample state).Pairwise (·.1 < ·.1) := by
  rw [insertEntry, List.pairwise_append, List.pairwise_cons]
  refine ⟨h.filter _, ⟨?_, h.filter _⟩, ?_⟩
  · intro e he
    simpa using (List.mem_filter.1 he).2
  · intro a ha b hb
    have ha := of_decide_eq_true (List.mem_filter.1 ha).2
    rcases List.mem_cons.1 hb with rfl | hb
    · exact ha
    · have hb := of_decide_eq_true (List.mem_filter.1 hb).2
      omega

/-- Sorted entries without the earliest `n`, the one at sample 0 not counted. -/
def dropEarliest (n : Nat) : List (Nat × ByteArray) → List (Nat × ByteArray)
  | (0, state) :: rest => (0, state) :: rest.drop n
  | entries => entries.drop n

theorem dropEarliest_sublist (n : Nat) (entries : List (Nat × ByteArray)) :
    (dropEarliest n entries).Sublist entries := by
  unfold dropEarliest
  split
  · exact (List.drop_sublist _ _).cons_cons _
  · exact List.drop_sublist _ _

/-- Puts a checkpoint in, and makes room by dropping the earliest. -/
def insert (s : Checkpoints) (sample : Nat) (state : ByteArray) : Checkpoints :=
  let entries := insertEntry s.entries sample state
  { s with
    entries := dropEarliest (entries.length - s.room) entries
    sorted := (sorted_insertEntry s.sorted sample state).sublist (dropEarliest_sublist _ _) }

/-- The latest checkpoint at or before a sample. -/
def nearest? (s : Checkpoints) (sample : Nat) : Option (Nat × ByteArray) :=
  (s.entries.filter (·.1 ≤ sample)).getLast?

/-- Drops the checkpoints after a sample. -/
def dropAfter (s : Checkpoints) (sample : Nat) : Checkpoints :=
  { s with
    entries := s.entries.filter (·.1 ≤ sample)
    sorted := s.sorted.filter _ }

/-- The number of checkpoints after a sample. -/
def countAfter (s : Checkpoints) (sample : Nat) : Nat := s.entries.countP (sample < ·.1)

/-- Drops all checkpoints. -/
def clear (s : Checkpoints) : Checkpoints := { s with entries := [], sorted := .nil }

end Checkpoints

end Rewind
