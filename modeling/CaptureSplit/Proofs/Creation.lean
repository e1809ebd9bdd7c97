/-
CaptureSplit.Proofs.Creation — what making files does to a disk.

A file is never made where a directory stands, so making files leaves the
directories as they are (`SameTree`), and a path that led somewhere leads
to the same place afterwards (`SameTree.resolve_eq_ok`). This is what lets
the effect of many files be told by the disk before the first of them:

* `Wrote before after files` says that `after` is `before` but for the
  listed files, each of which holds its content and nothing else;
* `createAll_wrote` says that files at different places, each of which can
  be made on the disk as it stands, can all be made one after the other.
-/
import CaptureSplit.Disk
import CaptureSplit.Failure

namespace CaptureSplit.Disk

/-! ## Directories -/

/-- The disks agree on what is a directory. -/
structure SameTree (before after : Disk) : Prop where
  home : after.home = before.home
  directory : ∀ l, after.find? l = some .directory ↔ before.find? l = some .directory

theorem SameTree.refl (d : Disk) : SameTree d d := ⟨rfl, fun _ => Iff.rfl⟩

theorem SameTree.trans {a b c : Disk} (hab : SameTree a b) (hbc : SameTree b c) :
    SameTree a c :=
  ⟨hbc.home.trans hab.home, fun l => (hbc.directory l).trans (hab.directory l)⟩

theorem ne_nil_of_find? {d : Disk} {l : Location} (h : d.find? l ≠ some .directory) : l ≠ [] := by
  rintro rfl
  exact h rfl

/-- A file put where no directory is leaves the directories alone. -/
theorem sameTree_put {d : Disk} {l : Location} (h : d.find? l ≠ some .directory)
    (content : Bytes) (executable : Bool) :
    SameTree d (d.put l (.file content executable)) := by
  refine ⟨rfl, fun m => ?_⟩
  rw [find?_put d m _ (ne_nil_of_find? h)]
  split
  · next heq =>
    subst heq
    simp [h]
  · exact Iff.rfl

theorem directory_of_enter {d : Disk} {here l : Location} {name : Name}
    (h : d.enter here name = .ok l) : d.find? here = some .directory := by
  unfold enter at h
  split at h
  · cases h
  · cases h
  · next hd => exact hd

/-- From a directory, a name leads to the same place on both disks. -/
theorem SameTree.enter_eq {before after : Disk} (h : SameTree before after) {here : Location}
    (hd : before.find? here = some .directory) (name : Name) :
    after.enter here name = before.enter here name := by
  simp only [enter, hd, (h.directory here).mpr hd]

theorem SameTree.walk_eq_ok {before after : Disk} (h : SameTree before after) :
    ∀ {names : List Name} {here l : Location}, before.walk here names = .ok l →
      after.walk here names = .ok l
  | [], _, _, hw => hw
  | name :: names, here, l, hw => by
      simp only [walk] at hw ⊢
      split at hw
      · cases hw
      · next next hn =>
        rw [h.enter_eq (directory_of_enter hn), hn]
        exact h.walk_eq_ok hw

theorem SameTree.resolve_eq_ok {before after : Disk} (h : SameTree before after) {p : Path}
    {l : Location} (hr : before.resolve p = .ok l) : after.resolve p = .ok l := by
  unfold resolve at hr ⊢
  split at hr
  · cases hr
  · split at hr
    · cases hr
    · split at hr
      · cases hr
      · next hzero hne hlen =>
        rw [if_neg hzero, if_neg hne, if_neg hlen, h.home]
        exact h.walk_eq_ok hr

theorem walk_append (d : Disk) (here : Location) (names : List Name) (name : Name) :
    d.walk here (names ++ [name]) = (d.walk here names).bind fun l => d.enter l name := by
  induction names generalizing here with
  | nil =>
    simp only [List.nil_append, walk, Except.bind]
    split <;> simp_all
  | cons first names ih =>
    simp only [List.cons_append, walk]
    split
    · rfl
    · exact ih _

/-! ## One file -/

/-- A file can be made at the path, or made anew. -/
def IsCreatable (d : Disk) (p : Path) : Prop := ∃ after, d.create p [] = .ok after

instance (d : Disk) (p : Path) : Decidable (d.IsCreatable p) :=
  match h : d.create p [] with
  | .ok after => .isTrue ⟨after, h⟩
  | .error _ => .isFalse fun ⟨_, hok⟩ => nomatch h.symm.trans hok

theorem create_eq_ok_iff {d after : Disk} {p : Path} {content : Bytes} :
    d.create p content = .ok after ↔ ∃ l, d.resolve p = .ok l ∧
      d.find? l ≠ some .directory ∧
        after = d.put l (.file content (keepsExecutable (d.find? l))) := by
  unfold create
  constructor
  · intro h
    split at h
    · cases h
    · next l hl =>
      split at h
      · cases h
      · next hd =>
        injection h with h
        exact ⟨l, hl, hd, h.symm⟩
  · rintro ⟨l, hl, hd, rfl⟩
    rw [hl]
    simp only

/-- What cannot be made has no place, or a directory at its place; the content
has no say in it. -/
theorem create_eq_error_iff {d : Disk} {p : Path} {content : Bytes} {cause : SystemFault} :
    d.create p content = .error cause ↔ d.resolve p = .error cause ∨
      ∃ l, d.resolve p = .ok l ∧ d.find? l = some .directory ∧ cause = .isADirectory := by
  unfold create
  cases d.resolve p with
  | error e => simp
  | ok l =>
    simp only [reduceCtorEq, false_or, Except.ok.injEq, exists_eq_left']
    split
    · next hd => simp [hd, eq_comm]
    · next hd =>
      simp only [reduceCtorEq, false_iff, not_and]
      exact fun h => absurd h hd

theorem isCreatable_iff {d : Disk} {p : Path} :
    d.IsCreatable p ↔ ∃ l, d.resolve p = .ok l ∧ d.find? l ≠ some .directory := by
  unfold IsCreatable
  simp only [create_eq_ok_iff]
  constructor
  · rintro ⟨after, l, hl, hd, -⟩
    exact ⟨l, hl, hd⟩
  · rintro ⟨l, hl, hd⟩
    exact ⟨_, l, hl, hd, rfl⟩

theorem not_isCreatable_iff {d : Disk} {p : Path} (content : Bytes) :
    ¬ d.IsCreatable p ↔ ∃ cause, d.create p content = .error cause := by
  unfold IsCreatable
  cases h : d.create p [] with
  | error cause =>
    have hcause : d.create p content = .error cause := by
      rw [create_eq_error_iff] at h ⊢
      exact h
    simp [hcause]
  | ok after =>
    obtain ⟨l, hl, hd, -⟩ := create_eq_ok_iff.mp h
    simp [create_eq_error_iff, hl, hd]

theorem SameTree.isCreatable {before after : Disk} (h : SameTree before after) {p : Path}
    (hp : before.IsCreatable p) : after.IsCreatable p := by
  obtain ⟨l, hl, hd⟩ := isCreatable_iff.mp hp
  exact isCreatable_iff.mpr ⟨l, h.resolve_eq_ok hl, fun h' => hd ((h.directory l).mp h')⟩

/-- The second disk is the first with the file made at the place of the path,
and all else as it was. -/
structure Made (before after : Disk) (p : Path) (content : Bytes) (l : Location) : Prop where
  place : before.resolve p = .ok l
  tree : SameTree before after
  find : ∀ m, after.find? m =
    if l = m then some (.file content (keepsExecutable (before.find? l))) else before.find? m

theorem IsCreatable.create {d : Disk} {p : Path} (h : d.IsCreatable p) (content : Bytes) :
    ∃ l after, d.create p content = .ok after ∧ Made d after p content l := by
  obtain ⟨l, hl, hd⟩ := isCreatable_iff.mp h
  refine ⟨l, _, create_eq_ok_iff.mpr ⟨l, hl, hd, rfl⟩, hl, sameTree_put hd _ _, ?_⟩
  intro m
  exact find?_put d m _ (ne_nil_of_find? hd)

/-! ## Many files -/

/-- Makes files one after the other, up to the first that cannot be made. -/
def createAll (d : Disk) : List (Path × Bytes) → Option Failure × Disk
  | [] => (none, d)
  | (p, content) :: rest =>
    match d.create p content with
    | .error cause => (some (.notWritten p cause), d)
    | .ok after => after.createAll rest

theorem createAll_append (files more : List (Path × Bytes)) (d : Disk) :
    d.createAll (files ++ more) =
      match d.createAll files with
      | (none, after) => after.createAll more
      | stopped => stopped := by
  induction files generalizing d with
  | nil => rfl
  | cons file files ih =>
    obtain ⟨p, content⟩ := file
    simp only [List.cons_append, createAll]
    split
    · rfl
    · exact ih _

/-- `after` is `before` but for the files listed, each of which holds its
content and may be executed if an old file at its place could be. -/
structure Wrote (before after : Disk) (files : Path → Bytes → Prop) : Prop where
  home : after.home = before.home
  holds : ∀ p content, files p content → ∃ l, before.resolve p = .ok l ∧
    after.resolve p = .ok l ∧
      after.find? l = some (.file content (keepsExecutable (before.find? l)))
  keeps : ∀ l, (∀ p content, files p content → before.resolve p ≠ .ok l) →
    after.find? l = before.find? l

/-- The paths of two files do not lead to the same place. -/
def Apart (d : Disk) (f g : Path × Bytes) : Prop :=
  ∀ l, d.resolve f.1 = .ok l → d.resolve g.1 ≠ .ok l

theorem SameTree.apart {before after : Disk} (h : SameTree before after) {f g : Path × Bytes}
    (hf : before.IsCreatable f.1) (hg : before.IsCreatable g.1) (hfg : before.Apart f g) :
    after.Apart f g := by
  obtain ⟨m, hm, -⟩ := isCreatable_iff.mp hf
  obtain ⟨n, hn, -⟩ := isCreatable_iff.mp hg
  intro l hl hl'
  rw [h.resolve_eq_ok hm] at hl
  rw [h.resolve_eq_ok hn] at hl'
  exact hfg l (hm.trans hl) (hn.trans hl')

/-- A file that is made leaves the place of another one alone. -/
theorem Made.exists_place {before after : Disk} {p : Path} {content : Bytes} {l : Location}
    (h : Made before after p content l) {f : Path × Bytes} (hf : before.IsCreatable f.1)
    (hapart : before.Apart (p, content) f) :
    ∃ m, before.resolve f.1 = .ok m ∧ after.resolve f.1 = .ok m ∧ l ≠ m := by
  obtain ⟨m, hm, -⟩ := isCreatable_iff.mp hf
  refine ⟨m, hm, h.tree.resolve_eq_ok hm, ?_⟩
  rintro rfl
  exact hapart l h.place hm

/-- Making a file and then others at other places is making all of them. -/
theorem Made.wrote {before next after : Disk} {p : Path} {content : Bytes} {l : Location}
    {rest : List (Path × Bytes)} (h : Made before next p content l)
    (hplace : ∀ f ∈ rest, ∃ m, before.resolve f.1 = .ok m ∧ next.resolve f.1 = .ok m ∧ l ≠ m)
    (htree : SameTree next after) (hrest : Wrote next after fun q bytes => (q, bytes) ∈ rest) :
    Wrote before after fun q bytes => (q, bytes) ∈ (p, content) :: rest := by
  refine ⟨hrest.home.trans h.tree.home, ?_, ?_⟩
  · intro q bytes hq
    rcases List.mem_cons.mp hq with heq | hq
    · obtain ⟨rfl, rfl⟩ := Prod.mk.inj heq
      have hkept : after.find? l = next.find? l := by
        refine hrest.keeps l ?_
        intro r b hr
        obtain ⟨m, -, hm, hne⟩ := hplace (r, b) hr
        rw [hm]
        exact fun heq => hne (Except.ok.inj heq).symm
      refine ⟨l, h.place, htree.resolve_eq_ok (h.tree.resolve_eq_ok h.place), ?_⟩
      rw [hkept, h.find, if_pos rfl]
    · obtain ⟨m, hm, hm', hne⟩ := hplace (q, bytes) hq
      obtain ⟨n, hn, hafter, hcontent⟩ := hrest.holds q bytes hq
      obtain rfl : m = n := Except.ok.inj (hm'.symm.trans hn)
      refine ⟨m, hm, hafter, ?_⟩
      rw [hcontent, h.find, if_neg hne]
  · intro m hm
    have hne : l ≠ m := by
      rintro rfl
      exact hm p content (by simp) h.place
    have hkept : after.find? m = next.find? m := by
      refine hrest.keeps m ?_
      intro r b hr heq
      obtain ⟨n, hn, hn', -⟩ := hplace (r, b) hr
      exact hm r b (by simp [hr]) (hn.trans (hn'.symm.trans heq))
    rw [hkept, h.find, if_neg hne]

/-- Files that can be made, at places of their own, are all made. -/
theorem createAll_wrote {files : List (Path × Bytes)} {d : Disk}
    (hapart : files.Pairwise d.Apart) (hcan : ∀ f ∈ files, d.IsCreatable f.1) :
    ∃ after, d.createAll files = (none, after) ∧ SameTree d after ∧
      Wrote d after fun p content => (p, content) ∈ files := by
  induction files generalizing d with
  | nil =>
    refine ⟨d, rfl, .refl d, rfl, ?_, fun _ _ => rfl⟩
    intro p content h
    cases h
  | cons file rest ih =>
    obtain ⟨p, content⟩ := file
    obtain ⟨hhead, hrest⟩ := List.pairwise_cons.mp hapart
    obtain ⟨hfirst, hcan⟩ := List.forall_mem_cons.mp hcan
    obtain ⟨l, next, hcreate, hmade⟩ := hfirst.create content
    -- the rest can be made after the first, and still at places of its own
    have hcan' : ∀ f ∈ rest, next.IsCreatable f.1 :=
      fun f hf => hmade.tree.isCreatable (hcan f hf)
    have hapart' : rest.Pairwise next.Apart :=
      hrest.imp_of_mem fun hf hg => hmade.tree.apart (hcan _ hf) (hcan _ hg)
    obtain ⟨after, hall, htree, hwrote⟩ := ih hapart' hcan'
    refine ⟨after, ?_, hmade.tree.trans htree, hmade.wrote ?_ htree hwrote⟩
    · simp only [createAll, hcreate]
      exact hall
    · intro f hf
      exact hmade.exists_place (hcan f hf) (hhead f hf)

end CaptureSplit.Disk
