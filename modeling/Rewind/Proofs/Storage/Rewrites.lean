import Rewind.Proofs.Storage.Writes

/-!
Files that are written again. Nothing that is done to a tree tells trees apart that have the same
nodes (`SameNodes`). A file is deposited by making the directory that it is in and writing it, and
what was deposited stays while the same contents are deposited anywhere (`Written.deposit`). Main
statement: to deposit a file once more changes no node (`Written.deposit_self`).
-/

namespace Rewind.Storage.Tree

variable {t t' t'' : Tree} {place : Place} {path : Pathname} {data : ByteArray}

/-! ## Trees with the same nodes -/

/-- The same stands at every place. -/
def SameNodes (t t' : Tree) : Prop := ∀ place, t'.node? place = t.node? place

namespace SameNodes

theorem refl (t : Tree) : SameNodes t t := fun _ => rfl

theorem symm (h : SameNodes t t') : SameNodes t' t := fun place => (h place).symm

theorem trans (h : SameNodes t t') (h' : SameNodes t' t'') : SameNodes t t'' :=
  fun place => (h' place).trans (h place)

theorem enter (h : SameNodes t t') : t'.enter = t.enter := by
  funext here name
  rw [Tree.enter, Tree.enter, h here]

theorem walk (h : SameNodes t t') : t'.walk = t.walk := by
  funext names
  rw [Tree.walk, Tree.walk, h.enter]

theorem locate (h : SameNodes t t') : t'.locate = t.locate := by
  funext path
  rw [Tree.locate, Tree.locate, h.walk]

theorem read (h : SameNodes t t') (path : Pathname) : t'.read path = t.read path := by
  have hnode : t'.node? = t.node? := funext h
  unfold Tree.read
  rw [h.locate, h.enter, hnode]

theorem isDirectory (h : SameNodes t t') (path : Pathname) :
    t'.isDirectory path = t.isDirectory path := by
  have hnode : t'.node? = t.node? := funext h
  unfold Tree.isDirectory
  rw [h.locate, hnode]

theorem put (h : SameNodes t t') (place : Place) (node : Node) :
    SameNodes (t.put place node) (t'.put place node) := by
  intro other
  by_cases he : other = place
  · subst he
    cases other with
    | nil => rfl
    | cons name names =>
      rw [node?_put_self t (List.cons_ne_nil _ _), node?_put_self t' (List.cons_ne_nil _ _)]
  · rw [node?_put_of_ne t he, node?_put_of_ne t' he, h other]

theorem write (h : SameNodes t t') (path : Pathname) (data : ByteArray) :
    (t'.write path data).1 = (t.write path data).1 ∧
      SameNodes (t.write path data).2 (t'.write path data).2 := by
  have hnode : t'.node? = t.node? := funext h
  have htarget : t'.target path = t.target path := by
    unfold target
    rw [h.walk, hnode]
  unfold Tree.write
  rw [htarget]
  cases t.target path with
  | error e => exact ⟨rfl, h⟩
  | ok place => exact ⟨rfl, h.put _ _⟩

theorem makeDirectory_eq_error (h : SameNodes t t') (path : Pathname) (e : Fault) :
    t'.makeDirectory path = .error e ↔ t.makeDirectory path = .error e := by
  rw [makeDirectory_eq, makeDirectory_eq, h.locate]
  cases t.locate path with
  | error e' => rfl
  | ok place =>
    simp only [h place]
    cases t.node? place <;> simp

end SameNodes

theorem sameNodes_put_self {node : Node} (h : t.node? place = some node) :
    SameNodes t (t.put place node) := by
  intro other
  by_cases he : other = place
  · subst he
    cases other with
    | nil => rfl
    | cons name names => rw [node?_put_self t (List.cons_ne_nil _ _), h]
  · exact node?_put_of_ne t he node

/-! ## Directories -/

theorem isDirectory_iff : t.isDirectory path = true ↔
    ∃ place, t.locate path = .ok place ∧ t.node? place = some .directory := by
  unfold isDirectory
  cases t.locate path with
  | error e => simp
  | ok place => cases hn : t.node? place with
    | none => simp [hn]
    | some node => cases node <;> simp [hn]

theorem KeepsDirectories.locate (hk : KeepsDirectories t t') (h : t.locate path = .ok place) :
    t'.locate path = .ok place := by
  unfold Tree.locate at h ⊢
  cases hn : names path with
  | error e => rw [hn] at h; cases h
  | ok names => rw [hn] at h; exact hk.walk h

theorem KeepsDirectories.isDirectory (hk : KeepsDirectories t t')
    (h : t.isDirectory path = true) : t'.isDirectory path = true := by
  obtain ⟨place, hl, hdir⟩ := isDirectory_iff.1 h
  exact isDirectory_iff.2 ⟨place, hk.locate hl, hk place hdir⟩

theorem SameNodes.provide (h : SameNodes t t') (path : Pathname) :
    (t'.provide path).1 = (t.provide path).1 ∧
      SameNodes (t.provide path).2 (t'.provide path).2 := by
  unfold Tree.provide
  rw [makeDirectory_eq, makeDirectory_eq, h.locate, h.isDirectory]
  cases t.locate path with
  | error e => exact ⟨rfl, h⟩
  | ok place =>
    simp only [h place]
    cases t.node? place with
    | some node => exact ⟨rfl, h⟩
    | none => exact ⟨rfl, h.put _ _⟩

theorem SameNodes.makeDirectories (h : SameNodes t t') (paths : List Pathname) :
    (t'.makeDirectories paths).1 = (t.makeDirectories paths).1 ∧
      SameNodes (t.makeDirectories paths).2 (t'.makeDirectories paths).2 := by
  induction paths with
  | nil => exact ⟨rfl, h⟩
  | cons path parents ih =>
    by_cases hm : t.makeDirectory path = .error .notFound
    · rw [makeDirectories_of_notFound hm,
        makeDirectories_of_notFound ((h.makeDirectory_eq_error path _).2 hm)]
      obtain ⟨hresult, hsame⟩ := ih
      generalize t.makeDirectories parents = made at hresult hsame ⊢
      generalize t'.makeDirectories parents = made' at hresult hsame ⊢
      obtain ⟨result, u⟩ := made
      obtain ⟨result', u'⟩ := made'
      obtain rfl : result' = result := hresult
      cases result' with
      | error e => exact ⟨rfl, hsame⟩
      | ok => exact hsame.provide path
    · rw [makeDirectories_of_ne_notFound hm,
        makeDirectories_of_ne_notFound (mt (h.makeDirectory_eq_error path _).1 hm)]
      exact h.provide path

theorem provide_eq_ok (h : t.provide path = (.ok (), t')) : t'.isDirectory path = true := by
  unfold provide at h
  rw [makeDirectory_eq] at h
  cases hl : t.locate path with
  | error e => simp [hl, isDirectory] at h
  | ok place =>
    rw [hl] at h
    cases hn : t.node? place with
    | some node =>
      simp only [hn, Prod.mk.injEq] at h
      obtain ⟨hdir, rfl⟩ := h
      by_contra hne
      rw [if_neg hne] at hdir
      cases hdir
    | none =>
      simp only [hn, Prod.mk.injEq, true_and] at h
      subst h
      have hne : place ≠ [] := by
        rintro rfl
        cases hn
      have hfree : t.node? place ≠ some .directory := by rw [hn]; nofun
      have hk := keepsDirectories_put hfree .directory
      exact isDirectory_iff.2 ⟨place, hk.locate hl, node?_put_self t hne _⟩

theorem makeDirectories_eq_ok {parents : List Pathname}
    (h : t.makeDirectories (path :: parents) = (.ok (), t')) : t'.isDirectory path = true := by
  by_cases hm : t.makeDirectory path = .error .notFound
  · rw [makeDirectories_of_notFound hm] at h
    split at h
    · exact provide_eq_ok h
    · next hne => exact absurd h (hne t')
  · rw [makeDirectories_of_ne_notFound hm] at h
    exact provide_eq_ok h

/-- Where a directory is, there is none to be made. -/
theorem makeDirectories_of_isDirectory (h : t.isDirectory path = true)
    (parents : List Pathname) : t.makeDirectories (path :: parents) = (.ok (), t) := by
  obtain ⟨place, hl, hn⟩ := isDirectory_iff.1 h
  have hm : t.makeDirectory path = .error .alreadyExists := by
    rw [makeDirectory_eq, hl]
    simp only [hn]
  rw [makeDirectories_of_ne_notFound (by rw [hm]; nofun)]
  simp only [provide, hm, h, ↓reduceIte]

/-- The directory is there, unless the path names none. -/
def HasDirectory (directory : Pathname) (t : Tree) : Prop :=
  directory.ancestors = [] ∨ t.isDirectory directory = true

theorem ancestors_eq (path : Pathname) :
    path.ancestors = [] ∨ ∃ parents, path.ancestors = path :: parents := by
  unfold Pathname.ancestors
  cases path.components.length with
  | zero => exact .inl rfl
  | succ n => exact .inr ⟨_, rfl⟩

theorem hasDirectory_of_createDirectories (h : t.createDirectories path = (.ok (), t')) :
    t'.HasDirectory path := by
  obtain hnone | ⟨parents, hparents⟩ := ancestors_eq path
  · exact .inl hnone
  · rw [createDirectories, hparents] at h
    exact .inr (makeDirectories_eq_ok h)

theorem HasDirectory.createDirectories (h : t.HasDirectory path) :
    t.createDirectories path = (.ok (), t) := by
  rw [Tree.createDirectories]
  obtain hnone | hdir := h
  · rw [hnone]
    rfl
  · obtain hnone | ⟨parents, hparents⟩ := ancestors_eq path
    · rw [hnone]
      rfl
    · rw [hparents, makeDirectories_of_isDirectory hdir]

/-! ## Deposits -/

/-- A file is there with the directory that it is in. -/
structure Written (path : Pathname) (data : ByteArray) (t : Tree) : Prop where
  contents : t.read path = .ok data
  folder : ∀ directory ∈ folder? path, t.HasDirectory directory

theorem SameNodes.deposit (h : SameNodes t t') (path : Pathname) (data : ByteArray) :
    (t'.deposit path data).1 = (t.deposit path data).1 ∧
      SameNodes (t.deposit path data).2 (t'.deposit path data).2 := by
  unfold Tree.deposit
  cases folder? path with
  | none => exact h.write path data
  | some directory =>
    obtain ⟨hresult, hsame⟩ := h.makeDirectories directory.ancestors
    simp only [Option.elim_some, createDirectories]
    generalize t.makeDirectories directory.ancestors = made at hresult hsame ⊢
    generalize t'.makeDirectories directory.ancestors = made' at hresult hsame ⊢
    obtain ⟨result, u⟩ := made
    obtain ⟨result', u'⟩ := made'
    obtain rfl : result' = result := hresult
    cases result' with
    | error e => exact ⟨rfl, hsame⟩
    | ok => exact hsame.write path data

/-- What was deposited is there. -/
theorem deposit_eq_ok (h : t.deposit path data = (.ok (), t')) : Written path data t' := by
  unfold deposit at h
  split at h
  · next u hmade =>
    have hk := (retains_write path data u).directories
    rw [h] at hk
    refine ⟨read_write h, fun directory hdirectory => ?_⟩
    rw [Option.mem_def.1 hdirectory] at hmade
    exact (hasDirectory_of_createDirectories hmade).imp_right hk.isDirectory
  · next hne => exact absurd h (hne t')

/-- **To deposit a file once more changes nothing.** -/
theorem Written.deposit_self (h : Written path data t) :
    ∃ t', t.deposit path data = (.ok (), t') ∧ SameNodes t t' := by
  have hmade : (folder? path).elim (.ok (), t) (t.createDirectories ·) = (.ok (), t) := by
    cases hf : folder? path with
    | none => rfl
    | some directory => exact (h.folder directory hf).createDirectories
  obtain ⟨hs, names, place, hn, hw, hfile⟩ := read_eq_ok h.contents
  have htarget : t.target path = .ok place := by
    simp only [target, hn, hs, hw, hfile, bind, Except.bind, Bool.false_eq_true, ↓reduceIte]
  refine ⟨t.put place (.file data), ?_, sameNodes_put_self hfile⟩
  unfold Tree.deposit
  rw [hmade]
  simp only [write, htarget]

/-- **What was deposited stays** while the same contents are deposited anywhere. -/
theorem Written.deposit (h : Written path data t) (other : Pathname) :
    Written path data (t.deposit other data).2 := by
  have hr := retains_deposit other data t
  exact ⟨hr.read h.contents, fun directory hdirectory =>
    (h.folder directory hdirectory).imp_right hr.directories.isDirectory⟩

end Rewind.Storage.Tree
