import PhasicJ.Files.FileTree

/-! Making a directory and the directories above it, one at a time beside others that do the same. -/

namespace PhasicJ.Files

variable {ν α : Type}

/-- How far the recursion has come: the directory to try, whether its parent has been made for it,
and the names of the directories below it that it was called for, the outermost first. -/
inductive Making (ν : Type) where
  | mkdir (path : List ν) (again : Bool) (below : List ν)
  | made

namespace Making

def returnTo (path : List ν) : List ν → Making ν
  | [] => made
  | n :: below => mkdir (n :: path) true below

def left : Making ν → ℕ
  | mkdir path again below => (if again then 0 else 2 * path.length) + below.length + 1
  | made => 0

@[simp] lemma left_returnTo (path below : List ν) : (returnTo path below).left = below.length := by
  cases below <;> simp [returnTo, left]

/-- The recursion makes the target, and the parent is there where it has been made. -/
def Makes (t : FileTree ν α) (target : List ν) : Making ν → Prop
  | mkdir path again below => below.reverse ++ path = target ∧
      (again = true → ∀ n p, path = n :: p → t.isDir p = true)
  | made => t.isDir target = true

section Makes

variable {t u : FileTree ν α} {m : Making ν} {target path below : List ν}

lemma Makes.mono (h : m.Makes t target)
    (hu : ∀ p, p <:+ target → t.isDir p = true → u.isDir p = true) : m.Makes u target := by
  cases m with
  | mkdir path again below =>
    refine ⟨h.1, fun ha n p hp => hu p ?_ (h.2 ha n p hp)⟩
    exact (hp ▸ List.suffix_cons n p : p <:+ path).trans ⟨below.reverse, h.1⟩
  | made => exact hu target List.suffix_rfl h

lemma makes_returnTo (hp : t.isDir path = true) (h : below.reverse ++ path = target) :
    (returnTo path below).Makes t target := by
  cases below with
  | nil =>
    obtain rfl : path = target := h
    exact hp
  | cons n below =>
    refine ⟨by simpa using h, fun _ n' p hn => ?_⟩
    obtain ⟨-, rfl⟩ := List.cons.inj hn
    exact hp

end Makes

variable [DecidableEq ν]

def next (t : FileTree ν α) : Making ν → Option (FileTree ν α × Making ν)
  | made => none
  -- the empty path
  | mkdir [] _ below => some (t, returnTo [] below)
  | mkdir (n :: p) again below =>
    match t.mkdir n p with
    | .ok u => some (u, returnTo (n :: p) below)
    | .error e =>
      if again = false ∧ e = .notFound then some (t, mkdir p false (n :: below))
      else if t.isDir (n :: p) then some (t, returnTo (n :: p) below)
      else none

section Steps

variable {D : List ν → Prop} {isFile : ν → Prop} {t u : FileTree ν α} {m m' : Making ν}
  {target path below : List ν}

/-- With names for directories no step fails, whatever else has been made meanwhile. -/
lemma Makes.next (hs : t.Sorted D isFile) (ht : FileTree.Enterable D isFile target)
    (hm : m.Makes t target) (hne : m ≠ made) :
    ∃ u m', m.next t = some (u, m') ∧ u.Sorted D isFile ∧ m'.Makes u target ∧ m'.left < m.left := by
  cases m with
  | made => exact absurd rfl hne
  | mkdir path again below =>
    obtain ⟨hpath, hagain⟩ := hm
    cases path with
    | nil =>
      refine ⟨t, _, rfl, hs, makes_returnTo (FileTree.isDir_iff.mpr t.root) hpath, ?_⟩
      rw [left_returnTo, left]
      omega
    | cons n p =>
      have hp : FileTree.Enterable D isFile (n :: p) := ht.mono ⟨below.reverse, hpath⟩
      obtain ⟨-, hn⟩ := hp n p List.suffix_rfl
      have hleft : (returnTo (n :: p) below).left < (mkdir (n :: p) again below).left := by
        rw [left_returnTo, left]
        omega
      rcases hs.mkdir_cases hp with ⟨u, hu⟩ | ⟨he, hdir⟩ | ⟨he, hdir⟩
      · exact ⟨u, _, by rw [Making.next, hu], hs.mkdir hn hu,
          makes_returnTo (FileTree.mkdir_isDir hu) hpath, hleft⟩
      · refine ⟨t, _, ?_, hs, makes_returnTo hdir hpath, hleft⟩
        rw [Making.next, he]
        simp [hdir]
      -- the parent was made before a second try, so this is the first
      · cases again with
        | true => simp [hagain rfl n p rfl] at hdir
        | false =>
          refine ⟨t, mkdir p false (n :: below), by rw [Making.next, he]; simp, hs,
            ⟨by simpa using hpath, nofun⟩, ?_⟩
          simp only [left, List.length_cons, Bool.false_eq_true, if_false]
          omega

lemma next_extends (h : m.next t = some (u, m')) : t.Extends u := by
  unfold Making.next at h
  split at h
  · cases h
  · cases h
    exact fun _ _ hx => hx
  · split at h
    · next hu =>
      cases h
      exact FileTree.mkdir_extends hu
    · split at h
      · cases h
        exact fun _ _ hx => hx
      · split at h
        · cases h
          exact fun _ _ hx => hx
        · cases h

lemma next_other {q : List ν} (hm : m.Makes t target) (h : m.next t = some (u, m'))
    (hq : ¬ q <:+ target) : u.node q = t.node q := by
  unfold Making.next at h
  split at h
  · cases h
  · cases h
    rfl
  · split at h
    · next hu =>
      cases h
      rw [(FileTree.mkdir_ok hu).2.2, Function.update_of_ne]
      rintro rfl
      exact hq ⟨_, hm.1⟩
    · split at h
      · cases h
        rfl
      · split at h
        · cases h
          rfl
        · cases h

end Steps

end Making

end PhasicJ.Files
