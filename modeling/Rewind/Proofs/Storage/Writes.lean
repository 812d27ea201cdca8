import Mathlib.Data.List.Induction
import Rewind.Proofs.Storage.Extension
import Rewind.Storage.Tree

/-!
Files that were written. A write changes what stands at one place, which no way to another file
leads through. Main statements: a file holds what was last written to it (`read_write`), and a write
to another name leaves it alone (`read_write_of_ne`), also where the directory that the file is in
has to be made first (`keeps_deposit`).
-/

namespace Rewind.Storage.Tree

variable {t t' t'' : Tree} {here place : Place} {name : String}

/-! ## Ways through the tree -/

/-- All that a place is in are directories. -/
def Reaches (t : Tree) (place : Place) : Prop :=
  ∀ above, above <+: place → above ≠ place → t.node? above = some .directory

theorem enter_eq_ok (h : t.enter here name = .ok place) :
    t.node? here = some .directory ∧ (place = here ∧ name = "." ∨
      place = here.dropLast ∧ name = ".." ∨ place = here ++ [name] ∧ name ≠ "." ∧ name ≠ "..") := by
  unfold enter at h
  split at h
  · cases h
  · cases h
  · next hdir =>
    refine ⟨hdir, ?_⟩
    split at h
    · next hdot => cases h; exact .inl ⟨rfl, hdot⟩
    · next hdot =>
      split at h
      · next hup => cases h; exact .inr (.inl ⟨rfl, hup⟩)
      · next hup =>
        split at h
        · cases h
        · cases h; exact .inr (.inr ⟨rfl, hdot, hup⟩)

theorem Reaches.enter (hr : t.Reaches here) (h : t.enter here name = .ok place) :
    t.Reaches place := by
  obtain ⟨hdir, ⟨rfl, -⟩ | ⟨rfl, -⟩ | ⟨rfl, -⟩⟩ := enter_eq_ok h
  · exact hr
  · intro above hp hne
    have hle := hp.length_le
    refine hr above (hp.trans (List.dropLast_prefix here)) ?_
    rintro rfl
    exact hne (hp.eq_of_length_le (List.length_dropLast ▸ Nat.sub_le _ _))
  · intro above hp hne
    obtain hp | hp := List.prefix_concat_iff.1 hp
    · exact absurd hp hne
    · by_cases he : above = here
      · exact he ▸ hdir
      · exact hr above hp he

theorem walk_concat (names : List String) (name : String) :
    t.walk (names ++ [name]) = t.walk names >>= (t.enter · name) := by
  rw [walk, List.foldlM_append, walk]
  simp

/-- A way ends in the last name, unless it ends in a directory. -/
theorem walk_eq_ok {names : List String} (h : t.walk names = .ok place) :
    t.Reaches place ∧ (t.node? place = some .directory ∨
      ∃ above name, place = above ++ [name] ∧ names.getLast? = some name ∧
        name ≠ "." ∧ name ≠ "..") := by
  induction names using List.reverseRecOn generalizing place with
  | nil =>
    cases h
    exact ⟨fun above hp hne => absurd (List.prefix_nil.1 hp) hne, .inl rfl⟩
  | append_singleton names name ih =>
    rw [walk_concat] at h
    cases hw : t.walk names with
    | error e => rw [hw] at h; cases h
    | ok here =>
      rw [hw] at h
      have h : t.enter here name = .ok place := h
      have hr := (ih hw).1
      refine ⟨hr.enter h, ?_⟩
      obtain ⟨hdir, ⟨rfl, -⟩ | ⟨rfl, -⟩ | ⟨rfl, hdot, hup⟩⟩ := enter_eq_ok h
      · exact .inl hdir
      · left
        by_cases he : here = []
        · subst he
          rfl
        · refine hr _ (List.dropLast_prefix here) fun heq => ?_
          have hl := congrArg List.length heq
          have hpos := List.length_pos_iff.2 he
          rw [List.length_dropLast] at hl
          omega
      · exact .inr ⟨here, name, rfl, List.getLast?_concat, hdot, hup⟩

/-! ## Reads and writes -/

theorem lookup_filter_ne {other : Place} (h : other ≠ place) (entries : List (Place × Node)) :
    (entries.filter (·.1 != place)).lookup other = entries.lookup other := by
  induction entries with
  | nil => rfl
  | cons entry entries ih =>
    obtain ⟨key, node⟩ := entry
    by_cases hk : key = place
    · have hko : (other == key) = false := beq_false_of_ne (hk ▸ h)
      rw [List.filter_cons_of_neg (by simp [hk]), ih, List.lookup_cons, hko]
    · rw [List.filter_cons_of_pos (by simp [hk]), List.lookup_cons, List.lookup_cons, ih]

theorem node?_put_self (t : Tree) (h : place ≠ []) (node : Node) :
    (t.put place node).node? place = some node := by
  have hnone : (t.entries.filter (·.1 != place)).lookup place = none := by
    rw [List.lookup_eq_none_iff]
    intro entry hentry
    have hne := bne_iff_ne.1 (List.mem_filter.1 hentry).2
    exact bne_iff_ne.2 hne.symm
  have hlookup : (t.put place node).entries.lookup place = some node := by
    rw [put, List.lookup_append, hnone, Option.none_or, List.lookup_cons_self]
  cases place with
  | nil => exact absurd rfl h
  | cons name names => exact hlookup

theorem node?_put_of_ne (t : Tree) {other : Place} (h : other ≠ place) (node : Node) :
    (t.put place node).node? other = t.node? other := by
  have hlookup : (t.put place node).entries.lookup other = t.entries.lookup other := by
    have hk : (other == place) = false := beq_false_of_ne h
    rw [put, List.lookup_append, lookup_filter_ne h, List.lookup_cons, hk]
    exact Option.or_none
  cases other with
  | nil => rfl
  | cons name names => exact hlookup

/-- What is a directory in the first tree is one in the second. -/
def KeepsDirectories (t t' : Tree) : Prop :=
  ∀ place, t.node? place = some .directory → t'.node? place = some .directory

theorem keepsDirectories_put (hd : t.node? place ≠ some .directory) (node : Node) :
    KeepsDirectories t (t.put place node) := by
  intro other hdir
  have hne : other ≠ place := fun he => hd (he ▸ hdir)
  rw [node?_put_of_ne t hne, hdir]

/-- Ways lead where they led as long as what they lead through is there. -/
theorem KeepsDirectories.walk (hk : KeepsDirectories t t') {names : List String} {other : Place}
    (h : t.walk names = .ok other) : t'.walk names = .ok other := by
  induction names using List.reverseRecOn generalizing other with
  | nil => exact h
  | append_singleton names name ih =>
    rw [walk_concat] at h ⊢
    cases hw : t.walk names with
    | error e => rw [hw] at h; cases h
    | ok here =>
      rw [hw] at h
      have h : t.enter here name = .ok other := h
      have hdir := (enter_eq_ok h).1
      rw [ih hw]
      change t'.enter here name = .ok other
      rwa [enter, hk here hdir, ← hdir]

theorem KeepsDirectories.trans (h : KeepsDirectories t t') (h' : KeepsDirectories t' t'') :
    KeepsDirectories t t'' := fun place hdir => h' place (h place hdir)

/-- A file put where no directory is stands in nobody's way. -/
theorem walk_put (hd : t.node? place ≠ some .directory) (node : Node) {names : List String}
    {other : Place} (h : t.walk names = .ok other) : (t.put place node).walk names = .ok other :=
  (keepsDirectories_put hd node).walk h

/-- A file that cannot be written is not touched. -/
theorem write_eq_error {path : Pathname} {contents : ByteArray} {e : Fault}
    (h : t.write path contents = (.error e, t')) : t' = t := by
  unfold write at h
  split at h <;> cases h
  rfl

theorem write_eq_ok {path : Pathname} {contents : ByteArray}
    (h : t.write path contents = (.ok (), t')) :
    path.endsInSlash = false ∧ ∃ names place, Tree.names path = .ok names ∧
      t.walk names = .ok place ∧ t.node? place ≠ some .directory ∧
      t' = t.put place (.file contents) := by
  unfold write at h
  split at h
  · cases h
  · next place ht =>
    cases h
    unfold target at ht
    cases hn : names path with
    | error e => rw [hn] at ht; cases ht
    | ok names =>
      rw [hn] at ht
      cases hs : path.endsInSlash with
      | true =>
        simp only [hs, bind, Except.bind, ↓reduceIte] at ht
        split at ht <;> cases ht
      | false =>
        simp only [hs, bind, Except.bind, Bool.false_eq_true, ↓reduceIte] at ht
        cases hw : t.walk names with
        | error e => rw [hw] at ht; cases ht
        | ok place' =>
          rw [hw] at ht
          simp only at ht
          split at ht
          · cases ht
          · next hd =>
            cases ht
            exact ⟨rfl, names, place, rfl, hw, hd, rfl⟩

theorem read_of_walk {path : Pathname} {contents : ByteArray} {names : List String}
    (hs : path.endsInSlash = false) (hn : Tree.names path = .ok names)
    (hw : t.walk names = .ok place) (hf : t.node? place = some (.file contents)) :
    t.read path = .ok contents := by
  simp only [read, locate, hn, hw, hs, hf, bind, Except.bind, pure, Except.pure,
    Bool.false_eq_true, ↓reduceIte]

/-- Only files have contents. -/
theorem node?_of_contents {place : Place} {contents : ByteArray} (h : (match t.node? place with
      | none => .error .notFound
      | some .directory => .error .isADirectory
      | some (.file contents) => .ok contents) = (.ok contents : Except Fault ByteArray)) :
    t.node? place = some (.file contents) := by
  split at h
  · cases h
  · cases h
  · next hf =>
    cases h
    exact hf

theorem read_eq_ok {path : Pathname} {contents : ByteArray} (h : t.read path = .ok contents) :
    path.endsInSlash = false ∧ ∃ names place, Tree.names path = .ok names ∧
      t.walk names = .ok place ∧ t.node? place = some (.file contents) := by
  unfold read locate at h
  cases hn : names path with
  | error e => rw [hn] at h; cases h
  | ok names =>
    rw [hn] at h
    cases hw : t.walk names with
    | error e =>
      simp only [bind, Except.bind, hw] at h
      cases h
    | ok place =>
      simp only [bind, Except.bind, hw] at h
      cases hs : path.endsInSlash with
      | true =>
        simp only [hs, ↓reduceIte] at h
        cases he : t.enter place "." with
        | error e => rw [he] at h; cases h
        | ok place' =>
          -- A way that goes on from the place ends in a directory.
          obtain ⟨hdir, ⟨rfl, -⟩ | ⟨-, hup⟩ | ⟨-, hdot, -⟩⟩ := enter_eq_ok he
          · rw [he] at h
            have hf := node?_of_contents h
            rw [hdir] at hf
            cases hf
          · exact absurd hup (by decide)
          · exact absurd rfl hdot
      | false =>
        rw [hs] at h
        exact ⟨rfl, names, place, rfl, hw, node?_of_contents h⟩

/-- **A file holds what was last written to it.** -/
theorem read_write {path : Pathname} {contents : ByteArray}
    (h : t.write path contents = (.ok (), t')) : t'.read path = .ok contents := by
  obtain ⟨hs, names, place, hn, hw, hd, rfl⟩ := write_eq_ok h
  have hne : place ≠ [] := fun he => hd (he ▸ rfl)
  exact read_of_walk hs hn (walk_put hd _ hw) (node?_put_self t hne _)

/-- **A file that can be read can be patched, and holds the patch in front of the rest.** -/
theorem patch_of_read {path : Pathname} {contents : ByteArray} (h : t.read path = .ok contents)
    (front : ByteArray) : ∃ t', t.patch path front = (.ok (), t') ∧
      t'.read path = .ok (Bytes.overwrite contents 0 front) := by
  obtain ⟨hs, names, place, hn, hw, hf⟩ := read_eq_ok h
  have hd : t.node? place ≠ some .directory := by
    rw [hf]
    nofun
  have hne : place ≠ [] := fun he => hd (he ▸ rfl)
  refine ⟨_, ?_, read_of_walk hs hn (walk_put hd _ hw) (node?_put_self t hne _)⟩
  simp only [patch, locate, hn, hw, hs, hf, bind, Except.bind, Bool.false_eq_true, ↓reduceIte]

/-- **A write leaves files of other names alone.** -/
theorem read_write_of_ne {path other : Pathname} {contents data : ByteArray}
    (hne : ∀ names names', Tree.names path = .ok names → Tree.names other = .ok names' →
      names'.getLast? ≠ names.getLast?)
    (h : t.write path contents = (.ok (), t')) (hr : t.read other = .ok data) :
    t'.read other = .ok data := by
  obtain ⟨-, names, place, hn, hw, hd, rfl⟩ := write_eq_ok h
  obtain ⟨hs, names', place', hn', hw', hf⟩ := read_eq_ok hr
  have hne' : place' ≠ place := by
    obtain hd' | ⟨above, name, rfl, hlast, -⟩ := (walk_eq_ok hw).2
    · exact absurd hd' hd
    · obtain hd' | ⟨above', name', rfl, hlast', -⟩ := (walk_eq_ok hw').2
      · rw [hf] at hd'
        cases hd'
      · intro he
        have hnames := congrArg List.getLast? he
        rw [List.getLast?_concat, List.getLast?_concat, ← hlast, ← hlast'] at hnames
        exact hne names names' hn hn' hnames
  exact read_of_walk hs hn' (walk_put hd _ hw') ((node?_put_of_ne t hne' _).trans hf)

/-! ## Files and directories that stay -/

variable {path : Pathname} {data : ByteArray}

/-- Directories stay, and so do files with the given contents. -/
structure Retains (data : ByteArray) (t t' : Tree) : Prop where
  directories : KeepsDirectories t t'
  files : ∀ place, t.node? place = some (.file data) → t'.node? place = some (.file data)

namespace Retains

theorem refl (data : ByteArray) (t : Tree) : Retains data t t := ⟨fun _ h => h, fun _ h => h⟩

theorem trans (h : Retains data t t') (h' : Retains data t' t'') : Retains data t t'' :=
  ⟨h.directories.trans h'.directories, fun place hf => h'.files place (h.files place hf)⟩

theorem read (h : Retains data t t') (hr : t.read path = .ok data) : t'.read path = .ok data := by
  obtain ⟨hs, names, place, hn, hw, hf⟩ := read_eq_ok hr
  exact read_of_walk hs hn (h.directories.walk hw) (h.files place hf)

end Retains

theorem retains_put_directory (h : t.node? place = none) (data : ByteArray) :
    Retains data t (t.put place .directory) := by
  have hdir : t.node? place ≠ some .directory := by rw [h]; nofun
  refine ⟨keepsDirectories_put hdir _, fun other hf => ?_⟩
  have hne : other ≠ place := by
    rintro rfl
    rw [h] at hf
    cases hf
  rw [node?_put_of_ne t hne, hf]

/-- Whatever file is written, those that hold the same already stay as they are. -/
theorem retains_write (path : Pathname) (data : ByteArray) (t : Tree) :
    Retains data t (t.write path data).2 := by
  generalize hw : t.write path data = written
  obtain ⟨result, t'⟩ := written
  cases result with
  | error e =>
    unfold write at hw
    split at hw
    · cases hw
      exact .refl data t
    · cases hw
  | ok =>
    obtain ⟨-, names, place, -, -, hdir, rfl⟩ := write_eq_ok hw
    refine ⟨keepsDirectories_put hdir _, fun other hf => ?_⟩
    by_cases he : other = place
    · have hne : place ≠ [] := by
        rintro rfl
        exact hdir rfl
      rw [he, node?_put_self t hne]
    · rw [node?_put_of_ne t he, hf]

theorem makeDirectory_eq (t : Tree) (path : Pathname) : t.makeDirectory path =
    match t.locate path with
    | .error e => .error e
    | .ok place => match t.node? place with
      | some _ => .error .alreadyExists
      | none => .ok (t.put place .directory) := by
  unfold makeDirectory
  cases t.locate path <;> rfl

/-- The tree with a new directory, or with the one that is there already. -/
def provide (path : Pathname) (t : Tree) : Except Fault Unit × Tree :=
  match t.makeDirectory path with
  | .ok t => (.ok (), t)
  | .error e => (if t.isDirectory path then .ok () else .error e, t)

theorem makeDirectories_of_notFound (h : t.makeDirectory path = .error .notFound)
    (parents : List Pathname) : t.makeDirectories (path :: parents) =
      match t.makeDirectories parents with
      | (.ok (), t) => t.provide path
      | failed => failed := by
  rw [makeDirectories]
  generalize t.makeDirectory path = made at h ⊢
  subst h
  rfl

theorem makeDirectories_of_ne_notFound (h : t.makeDirectory path ≠ .error .notFound)
    (parents : List Pathname) : t.makeDirectories (path :: parents) = t.provide path := by
  unfold provide
  rw [makeDirectories]
  cases hm : t.makeDirectory path with
  | ok t' => rfl
  | error e => cases e <;> first | rfl | exact absurd hm h

theorem retains_provide (data : ByteArray) (path : Pathname) (t : Tree) :
    Retains data t (t.provide path).2 := by
  unfold provide
  rw [makeDirectory_eq]
  cases t.locate path with
  | error e => exact .refl data t
  | ok place =>
    cases hn : t.node? place with
    | some node =>
      simp only [hn]
      exact .refl data t
    | none =>
      simp only [hn]
      exact retains_put_directory hn data

theorem retains_makeDirectories (data : ByteArray) (paths : List Pathname) (t : Tree) :
    Retains data t (t.makeDirectories paths).2 := by
  induction paths with
  | nil => exact .refl data t
  | cons path parents ih =>
    by_cases hm : t.makeDirectory path = .error .notFound
    · rw [makeDirectories_of_notFound hm]
      split
      · next hmade =>
        rw [hmade] at ih
        exact ih.trans (retains_provide data path _)
      · exact ih
    · rw [makeDirectories_of_ne_notFound hm]
      exact retains_provide data path t

/-- The directory that a file is in, unless the path is a name alone. -/
def folder? (path : Pathname) : Option Pathname := path.parent?.filter (!·.text.isEmpty)

/-- The tree with a file, and with the directory that it is in. -/
def deposit (path : Pathname) (data : ByteArray) (t : Tree) : Except Fault Unit × Tree :=
  match (folder? path).elim (.ok (), t) (t.createDirectories ·) with
  | (.ok (), t) => t.write path data
  | failed => failed

theorem retains_deposit (path : Pathname) (data : ByteArray) (t : Tree) :
    Retains data t (t.deposit path data).2 := by
  unfold deposit
  cases folder? path with
  | none => exact retains_write path data t
  | some directory =>
    have hmade := retains_makeDirectories data directory.ancestors t
    simp only [Option.elim_some, createDirectories]
    split
    · next hm =>
      rw [hm] at hmade
      exact hmade.trans (retains_write path data _)
    · exact hmade

/-- The file at a path, if there is one, is still there and holds the same. -/
def Keeps (path : Pathname) (t t' : Tree) : Prop :=
  ∀ data, t.read path = .ok data → t'.read path = .ok data

theorem Keeps.trans {path : Pathname} {t t' t'' : Tree} (h : Keeps path t t')
    (h' : Keeps path t' t'') : Keeps path t t'' := fun data hr => h' data (h data hr)

theorem keeps_write {path other : Pathname}
    (hne : ∀ names names', Tree.names path = .ok names → Tree.names other = .ok names' →
      names'.getLast? ≠ names.getLast?) (contents : ByteArray) (t : Tree) :
    Keeps other t (t.write path contents).2 := by
  intro data hr
  cases hw : (t.write path contents).1 with
  | ok => exact read_write_of_ne hne (Prod.ext hw rfl) hr
  | error e =>
    have hsame : (t.write path contents).2 = t := write_eq_error (Prod.ext hw rfl)
    rwa [hsame]

/-- Where a directory is made, no file was. -/
theorem keeps_makeDirectories (paths : List Pathname) (t : Tree) (other : Pathname) :
    Keeps other t (t.makeDirectories paths).2 :=
  fun data hr => (retains_makeDirectories data paths t).read hr

theorem keeps_deposit {path other : Pathname}
    (hne : ∀ names names', Tree.names path = .ok names → Tree.names other = .ok names' →
      names'.getLast? ≠ names.getLast?) (contents : ByteArray) (t : Tree) :
    Keeps other t (t.deposit path contents).2 := by
  unfold deposit
  cases folder? path with
  | none => exact keeps_write hne contents t
  | some directory =>
    have hmade := keeps_makeDirectories directory.ancestors t other
    simp only [Option.elim_some, createDirectories]
    split
    · next hm =>
      rw [hm] at hmade
      exact hmade.trans (keeps_write hne contents _)
    · exact hmade

/-! ## Files that differ in their extension -/

theorem names_eq_ok {path : Pathname} {names : List String} (h : Tree.names path = .ok names) :
    path.text.isEmpty = false ∧ names = path.pieces.filter (· != "") := by
  unfold Tree.names at h
  split at h
  · cases h
  · split at h
    · cases h
    · next he =>
      split at h
      · cases h
      · cases h
        exact ⟨Bool.eq_false_iff.2 he, rfl⟩

/-- A path that does not end in a slash leads to its last name. -/
theorem getLast?_names {path : Pathname} {lead name : List Char} (he : path.Ends lead name)
    (hs : path.endsInSlash = false) {names : List String} (hn : Tree.names path = .ok names) :
    names.getLast? = some (String.ofList name) ∧ name ≠ [] := by
  obtain ⟨hne, rfl⟩ := names_eq_ok hn
  have hname : name ≠ [] := by
    rintro rfl
    have htext := he.text
    rw [List.append_nil] at htext
    obtain rfl | ⟨front, rfl⟩ := he.lead
    · have hempty : path.text = "" := String.toList_eq_nil_iff.1 htext
      rw [hempty] at hne
      cases hne
    · rw [Pathname.endsInSlash, htext, List.getLast?_concat] at hs
      cases hs
  have hpos : (String.ofList name != "") = true :=
    bne_iff_ne.2 fun h => hname (String.ofList_injective h)
  have hlast : [String.ofList name].filter (· != "") = [String.ofList name] :=
    List.filter_cons_of_pos hpos
  refine ⟨?_, hname⟩
  rw [he.pieces, List.filter_append, hlast, List.getLast?_concat]

/-- **A write leaves the file alone that goes by the same path but for another extension.** -/
theorem read_withExtension_write {path : Pathname} {ext : String} {contents data : ByteArray}
    (hslash : '/' ∉ ext.toList) (hdot : '.' ∉ ext.toList)
    (hext : path.extension? ≠ some ext.toList) (h : t.write path contents = (.ok (), t'))
    (hr : t.read (path.withExtension ext) = .ok data) :
    t'.read (path.withExtension ext) = .ok data := by
  obtain ⟨hs, names, place, hn, hw, hd, -⟩ := write_eq_ok h
  obtain ⟨hs', -⟩ := read_eq_ok hr
  obtain ⟨lead, name, he⟩ := path.exists_ends
  obtain ⟨hlast, hne⟩ := getLast?_names he hs hn
  have hregular : Pathname.IsRegular name := by
    obtain hd' | ⟨above, last, -, hlast', hdot, hup⟩ := (walk_eq_ok hw).2
    · exact absurd hd' hd
    · rw [hlast] at hlast'
      cases hlast'
      refine ⟨hne, ?_, ?_⟩
      · rintro rfl
        exact hdot rfl
      · rintro rfl
        exact hup rfl
  obtain ⟨name', he', hne'⟩ := he.withExtension hregular hslash hdot hext
  refine read_write_of_ne (fun names₁ names₂ h₁ h₂ heq => hne' ?_) h hr
  rw [(getLast?_names he hs h₁).1, (getLast?_names he' hs' h₂).1] at heq
  exact String.ofList_injective (Option.some.inj heq)

end Rewind.Storage.Tree
