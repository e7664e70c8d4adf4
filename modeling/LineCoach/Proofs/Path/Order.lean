import Mathlib.Data.List.Lex
import Mathlib.Data.Prod.Lex
import Mathlib.Data.String.Basic
import LineCoach.Proofs.Path.Join

/-!
# The order of paths

Paths are ordered by their components, not by their text: `a/b` comes before `a-b`, although a slash
comes after a dash. The root comes before a leading dot, this before a double dot, and this before
the names, which have the order of texts. A list of components is compared with another one at the
first component where they differ, so a path comes before everything below it.
-/

namespace LineCoach.Path

namespace Component

/-- What a component is compared by. -/
def key : Component → ℕ ×ₗ String
  | root => toLex (0, "")
  | current => toLex (1, "")
  | parent => toLex (2, "")
  | normal name => toLex (3, name)

theorem key_injective : Function.Injective key := by
  intro first second h
  cases first <;> cases second <;> simp_all [key]

instance : LinearOrder Component :=
  LinearOrder.lift' key key_injective

/-- Names have the order of texts. -/
theorem normal_lt_normal {name later : String} (h : name < later) : normal name < normal later :=
  Prod.Lex.toLex_lt_toLex.2 (Or.inr ⟨rfl, h⟩)

end Component

/-- The path that leads from a path down through names. -/
def below (start : Path) (names : List String) : Path :=
  names.foldl (fun path name => path.join ⟨name⟩) start

theorem below_cons (start : Path) (name : String) (names : List String) :
    start.below (name :: names) = (start.join ⟨name⟩).below names := rfl

/-- Names on the way down are the last components. -/
theorem components_below (start : Path) {names : List String} (h : ∀ name ∈ names, IsName name) :
    (start.below names).components = start.components ++ names.map Component.normal := by
  induction names generalizing start with
  | nil => exact (List.append_nil _).symm
  | cons name names ih =>
    obtain ⟨hname, hnames⟩ := List.forall_mem_cons.1 h
    rw [below_cons, ih _ hnames, components_join _ hname, List.append_assoc, List.singleton_append,
      List.map_cons]

/-- Different ways down lead to different paths. -/
theorem below_inj (start : Path) {names others : List String} (h : ∀ name ∈ names, IsName name)
    (hothers : ∀ name ∈ others, IsName name) (heq : start.below names = start.below others) :
    names = others := by
  have hcomponents := congrArg components heq
  rw [components_below start h, components_below start hothers] at hcomponents
  have hmap := List.append_cancel_left hcomponents
  exact List.map_injective_iff.2 (fun _ _ hname => Component.normal.inj hname) hmap

/-- Below a directory, paths have the order of the entries that they lead through. -/
theorem below_lt_below (start : Path) {name later : String} (hlt : name < later)
    {names others : List String} (h : ∀ other ∈ name :: names, IsName other)
    (hothers : ∀ other ∈ later :: others, IsName other) :
    (start.below (name :: names)).components < (start.below (later :: others)).components := by
  rw [components_below start h, components_below start hothers, List.map_cons, List.map_cons]
  exact List.append_left_lt (List.Lex.rel (Component.normal_lt_normal hlt))

end LineCoach.Path
