import PhasicJ.Files.WriteAt

/-! Trees of directories and files, where a path lists its names from the innermost one. -/

namespace PhasicJ.Files

variable {ν α : Type}

inductive Node (α : Type) where
  | dir
  | file (content : List α)

def Node.modify (f : List α → List α) : Node α → Node α
  | dir => dir
  | file content => file (f content)

structure FileTree (ν α : Type) where
  node : List ν → Option (Node α)
  root : node [] = some .dir
  parent : ∀ n p, node (n :: p) ≠ none → node p = some .dir

inductive IoError where
  | notFound | notADirectory | alreadyExists | isADirectory
  deriving DecidableEq

namespace FileTree

def isDir (t : FileTree ν α) (p : List ν) : Bool :=
  match t.node p with
  | some .dir => true
  | _ => false

lemma isDir_iff {t : FileTree ν α} {p : List ν} : t.isDir p = true ↔ t.node p = some .dir := by
  unfold isDir
  split <;> simp_all

/-- Why there is no directory at a path: on the way to it there is nothing, or a file. -/
def missing (t : FileTree ν α) : List ν → IoError
  | [] => .notFound
  | n :: p =>
    match t.node (n :: p) with
    | some (.file _) => .notADirectory
    | some .dir => .notFound
    | none => t.missing p

def Extends (t u : FileTree ν α) : Prop := ∀ p x, t.node p = some x → u.node p = some x

/-- In a part of the tree, the names of the files can be told from those of the directories. -/
def Sorted (D : List ν → Prop) (isFile : ν → Prop) (t : FileTree ν α) : Prop :=
  ∀ n p x, D (n :: p) → t.node (n :: p) = some x → (x = .dir ↔ ¬ isFile n)

/-- Each directory on the way to the path has a name for a directory. -/
def Enterable (D : List ν → Prop) (isFile : ν → Prop) (p : List ν) : Prop :=
  ∀ n q, n :: q <:+ p → D (n :: q) ∧ ¬ isFile n

lemma Enterable.mono {D : List ν → Prop} {isFile : ν → Prop} {p q : List ν}
    (h : Enterable D isFile p) (hq : q <:+ p) : Enterable D isFile q :=
  fun n r hr => h n r (hr.trans hq)

lemma Sorted.missing {D : List ν → Prop} {isFile : ν → Prop} {t : FileTree ν α} {p : List ν}
    (hs : t.Sorted D isFile) (hp : Enterable D isFile p) : t.missing p = .notFound := by
  induction p with
  | nil => rfl
  | cons n p ih =>
    obtain ⟨hd, hn⟩ := hp n p List.suffix_rfl
    unfold FileTree.missing
    split
    · next hx => exact absurd ((hs n p _ hd hx).mpr hn) nofun
    · rfl
    · exact ih (hp.mono (List.suffix_cons n p))

variable [DecidableEq ν]

def put (t : FileTree ν α) (n : ν) (p : List ν) (x : Node α) (hp : t.isDir p = true)
    (hx : t.isDir (n :: p) = true → x = .dir) : FileTree ν α where
  node := Function.update t.node (n :: p) (some x)
  root := by rw [Function.update_of_ne (List.cons_ne_nil n p).symm, t.root]
  parent m q h := by
    rcases eq_or_ne q (n :: p) with rfl | hq
    · rw [Function.update_of_ne (by simp)] at h
      rw [Function.update_self, hx (isDir_iff.mpr (t.parent m _ h))]
    · rw [Function.update_of_ne hq]
      rcases eq_or_ne (m :: q) (n :: p) with hm | hm
      · obtain ⟨-, rfl⟩ := List.cons.inj hm
        exact isDir_iff.mp hp
      · rw [Function.update_of_ne hm] at h
        exact t.parent m q h

def modify (t : FileTree ν α) (p : List ν) (f : List α → List α) : FileTree ν α where
  node := Function.update t.node p ((t.node p).map (Node.modify f))
  root := by
    rcases eq_or_ne [] p with rfl | hp
    · rw [Function.update_self, t.root]
      rfl
    · rw [Function.update_of_ne hp, t.root]
  parent m q h := by
    have hm : t.node (m :: q) ≠ none := by
      rcases eq_or_ne (m :: q) p with rfl | hp
      · simpa using h
      · rwa [Function.update_of_ne hp] at h
    have hdir := t.parent m q hm
    rcases eq_or_ne q p with rfl | hp
    · rw [Function.update_self, hdir]
      rfl
    · rw [Function.update_of_ne hp, hdir]

def mkdir (t : FileTree ν α) (n : ν) (p : List ν) : Except IoError (FileTree ν α) :=
  if hp : t.isDir p then
    if (t.node (n :: p)).isSome then .error .alreadyExists
    else .ok (t.put n p .dir hp fun _ => rfl)
  else .error (t.missing p)

/-- A file that is there is truncated. -/
def create (t : FileTree ν α) (n : ν) (p : List ν) : Except IoError (FileTree ν α) :=
  if hp : t.isDir p then
    if hn : t.isDir (n :: p) then .error .isADirectory
    else .ok (t.put n p (.file []) hp fun h => absurd h hn)
  else .error (t.missing p)

section Operations

variable {t u : FileTree ν α} {n : ν} {p q : List ν} {x : Node α} {f : List α → List α}

lemma mkdir_ok (h : t.mkdir n p = .ok u) :
    t.isDir p = true ∧ t.node (n :: p) = none ∧
      u.node = Function.update t.node (n :: p) (some .dir) := by
  unfold mkdir at h
  split at h
  · next hp =>
    split at h
    · cases h
    · next hn =>
      obtain rfl := Except.ok.inj h
      exact ⟨hp, by simpa using hn, rfl⟩
  · cases h

lemma create_ok (h : t.create n p = .ok u) :
    t.isDir (n :: p) = false ∧ u.node = Function.update t.node (n :: p) (some (.file [])) := by
  unfold create at h
  split at h
  · split at h
    · cases h
    · next hn =>
      obtain rfl := Except.ok.inj h
      exact ⟨by simpa using hn, rfl⟩
  · cases h

lemma mkdir_extends (h : t.mkdir n p = .ok u) : t.Extends u := by
  obtain ⟨-, hn, hu⟩ := mkdir_ok h
  intro q x hq
  rw [hu, Function.update_of_ne, hq]
  rintro rfl
  simp [hn] at hq

lemma mkdir_isDir (h : t.mkdir n p = .ok u) : u.isDir (n :: p) = true := by
  rw [isDir_iff, (mkdir_ok h).2.2, Function.update_self]

lemma isDir_create (h : t.create n p = .ok u) (hq : t.isDir q = true) : u.isDir q = true := by
  obtain ⟨hn, hu⟩ := create_ok h
  rw [isDir_iff] at hq ⊢
  rw [hu, Function.update_of_ne, hq]
  rintro rfl
  simp [isDir, hq] at hn

lemma isDir_modify (hq : t.isDir q = true) : (t.modify p f).isDir q = true := by
  rw [isDir_iff] at hq ⊢
  rcases eq_or_ne q p with rfl | hp
  · simp [modify, hq, Node.modify]
  · simp [modify, Function.update_of_ne hp, hq]

lemma modify_self : (t.modify p f).node p = (t.node p).map (Node.modify f) :=
  Function.update_self ..

lemma modify_of_ne (h : q ≠ p) : (t.modify p f).node q = t.node q :=
  Function.update_of_ne h _ _

lemma modify_file {content : List α} (h : t.node p = some (.file content)) :
    (t.modify p f).node p = some (.file (f content)) := by
  simp [modify, h, Node.modify]

end Operations

section Sorted

variable {D : List ν → Prop} {isFile : ν → Prop} {t u : FileTree ν α} {n : ν} {p q : List ν}
  {f : List α → List α}

lemma Sorted.mkdir (hs : t.Sorted D isFile) (hn : ¬ isFile n) (h : t.mkdir n p = .ok u) :
    u.Sorted D isFile := by
  intro m q x hd hx
  rw [(mkdir_ok h).2.2] at hx
  rcases eq_or_ne (m :: q) (n :: p) with hm | hm
  · obtain ⟨rfl, rfl⟩ := List.cons.inj hm
    rw [Function.update_self] at hx
    simp [← Option.some.inj hx, hn]
  · rw [Function.update_of_ne hm] at hx
    exact hs m q x hd hx

lemma Sorted.create (hs : t.Sorted D isFile) (hn : isFile n) (h : t.create n p = .ok u) :
    u.Sorted D isFile := by
  intro m q x hd hx
  rw [(create_ok h).2] at hx
  rcases eq_or_ne (m :: q) (n :: p) with hm | hm
  · obtain ⟨rfl, rfl⟩ := List.cons.inj hm
    rw [Function.update_self] at hx
    simp [← Option.some.inj hx, hn]
  · rw [Function.update_of_ne hm] at hx
    exact hs m q x hd hx

lemma Sorted.modify (hs : t.Sorted D isFile) : (t.modify p f).Sorted D isFile := by
  intro m q x hd hx
  rcases eq_or_ne (m :: q) p with rfl | hp
  · obtain ⟨y, hy, rfl⟩ := Option.map_eq_some_iff.mp (modify_self.symm.trans hx)
    rw [← hs m q y hd hy]
    cases y <;> simp [Node.modify]
  · rw [modify_of_ne hp] at hx
    exact hs m q x hd hx

/-- With names for directories, making one fails only where there is one or its parent is not
there. -/
lemma Sorted.mkdir_cases (hs : t.Sorted D isFile) (hp : Enterable D isFile (n :: p)) :
    (∃ u, t.mkdir n p = .ok u) ∨
    (t.mkdir n p = .error .alreadyExists ∧ t.isDir (n :: p) = true) ∨
    (t.mkdir n p = .error .notFound ∧ t.isDir p = false) := by
  obtain ⟨hd, hn⟩ := hp n p List.suffix_rfl
  unfold FileTree.mkdir
  split
  · split
    · next hx =>
      obtain ⟨x, hx⟩ := Option.isSome_iff_exists.mp hx
      obtain rfl := (hs n p x hd hx).mpr hn
      exact .inr (.inl ⟨rfl, isDir_iff.mpr hx⟩)
    · exact .inl ⟨_, rfl⟩
  · next hf =>
    refine .inr (.inr ⟨?_, by simpa using hf⟩)
    rw [hs.missing (hp.mono (List.suffix_cons n p))]

lemma Sorted.creates (hs : t.Sorted D isFile) (hd : D (n :: p)) (hn : isFile n)
    (hp : t.isDir p = true) : ∃ u, t.create n p = .ok u := by
  have hdir : t.isDir (n :: p) = false := by
    rw [Bool.eq_false_iff, ne_eq, isDir_iff]
    exact fun hx => (hs n p .dir hd hx).mp rfl hn
  exact ⟨_, by rw [FileTree.create, dif_pos hp, dif_neg (by simp [hdir])]⟩

end Sorted

end FileTree

end PhasicJ.Files
