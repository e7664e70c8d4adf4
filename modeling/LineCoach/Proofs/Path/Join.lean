import Mathlib.Data.List.Basic
import LineCoach.Path.Basic

/-!
# Components of a joined path

A name that is joined to a path becomes its last component, whatever the spelling of the path: with
a slash at the end, with dots in it, or empty. Joining to a path that was joined to another one is
joining once, so that a path below a directory can be seen from anywhere.
-/

namespace LineCoach.Path

/-- A name that an entry of a directory can have: it is one part of a path, and it stands for a
component of its own. -/
def IsName (name : String) : Prop :=
  '/' ∉ name.toList ∧ name ≠ "" ∧ name ≠ "." ∧ name ≠ ".."

instance (name : String) : Decidable (IsName name) :=
  inferInstanceAs (Decidable (_ ∧ _))

/-- The component that a path has before those of its parts. -/
def opening (path : Path) : List Component :=
  if path.isAbsolute then [.root]
  else if path.parts.head? = some "." then [.current]
  else []

theorem parts_ne_nil (path : Path) : path.parts ≠ [] := by
  rw [parts, Ne, List.map_eq_nil_iff]
  exact List.splitOnP_ne_nil _ _

/-- The components are the opening and what the parts stand for. -/
theorem components_eq (path : Path) :
    path.components = path.opening ++ path.parts.filterMap component? := by
  rw [components, opening]
  cases hparts : path.parts with
  | nil => exact absurd hparts path.parts_ne_nil
  | cons first rest =>
    simp only [List.head?_cons, Option.some.injEq]
    split
    · rfl
    · split <;> rfl

section Slash

variable (front : List Char) (back : List Char)

/-- The parts of a text are those before a slash and those behind it. -/
theorem parts_slash :
    parts ⟨String.ofList (front ++ '/' :: back)⟩ =
      parts ⟨String.ofList front⟩ ++ parts ⟨String.ofList back⟩ := by
  simp only [parts, String.toList_ofList]
  rw [List.splitOnP_append_cons _ _ (by rfl), List.map_append]

/-- What follows a slash makes no difference to the opening. -/
theorem opening_slash :
    opening ⟨String.ofList (front ++ '/' :: back)⟩ = opening ⟨String.ofList (front ++ ['/'])⟩ := by
  have hparts := parts_ne_nil ⟨String.ofList front⟩
  simp only [opening, parts_slash, List.head?_append_of_ne_nil _ hparts, isAbsolute,
    String.toList_ofList]
  cases front <;> rfl

/-- A slash at the end makes no difference to the components of a path that has any text. -/
theorem components_slash (h : front ≠ []) :
    components ⟨String.ofList (front ++ ['/'])⟩ = components ⟨String.ofList front⟩ := by
  have hparts := parts_ne_nil ⟨String.ofList front⟩
  have hback : (parts ⟨String.ofList []⟩).filterMap component? = [] := by decide
  have hopening : opening ⟨String.ofList (front ++ ['/'])⟩ = opening ⟨String.ofList front⟩ := by
    simp only [opening, parts_slash, List.head?_append_of_ne_nil _ hparts, isAbsolute,
      String.toList_ofList, List.head?_append_of_ne_nil _ h]
  rw [components_eq, components_eq, parts_slash, List.filterMap_append, hback, hopening,
    List.append_nil]

end Slash

/-- The only part of a name is the name. -/
theorem parts_name {name : String} (h : IsName name) : parts ⟨name⟩ = [name] := by
  have hslash : ∀ c ∈ name.toList, (decide (c = '/')) = false := by
    intro c hc
    rw [decide_eq_false_iff_not]
    rintro rfl
    exact h.1 hc
  rw [parts, List.splitOnP_eq_singleton hslash, List.map_singleton, String.ofList_toList]

/-- A name stands for a component of its own. -/
theorem component?_name {name : String} (h : IsName name) :
    component? name = some (.normal name) := by
  simp [component?, h.2.1, h.2.2.1, h.2.2.2]

theorem isAbsolute_name {name : String} (h : IsName name) : isAbsolute ⟨name⟩ = false := by
  rw [isAbsolute, decide_eq_false_iff_not]
  exact fun hhead => h.1 (List.mem_of_head? hhead)

/-- A name behind a slash is the last component. -/
theorem components_slash_name (front : List Char) {name : String} (h : IsName name) :
    components ⟨String.ofList (front ++ '/' :: name.toList)⟩ =
      components ⟨String.ofList (front ++ ['/'])⟩ ++ [.normal name] := by
  have hback : (parts ⟨String.ofList []⟩).filterMap component? = [] := by decide
  rw [components_eq, components_eq, opening_slash, parts_slash, parts_slash, List.filterMap_append,
    List.filterMap_append, hback, String.ofList_toList, parts_name h, List.append_nil,
    List.filterMap_cons_some (component?_name h), List.filterMap_nil, List.append_assoc]

/-- What joining puts between two texts. -/
def separator (base : Path) : String :=
  if base.text.toList.getLast? = some '/' || base.text = "" then "" else "/"

/-- A path that starts at the root stands for itself. -/
theorem join_of_absolute (base : Path) {rest : Path} (h : rest.isAbsolute = true) :
    base.join rest = rest := by
  rw [join, h]
  rfl

/-- A path that does not start at the root is joined behind a separator. -/
theorem join_of_relative (base : Path) {rest : Path} (h : rest.isAbsolute = false) :
    base.join rest = ⟨base.text ++ base.separator ++ rest.text⟩ := by
  rw [join, h, separator]
  split
  · contradiction
  · split <;> simp

/-- A name that is joined to a path is its last component. -/
theorem components_join (base : Path) {name : String} (h : IsName name) :
    (base.join ⟨name⟩).components = base.components ++ [.normal name] := by
  obtain ⟨text⟩ := base
  rw [join_of_relative _ (isAbsolute_name h), separator]
  by_cases hlast : text.toList.getLast? = some '/'
  · obtain ⟨front, hfront⟩ := List.getLast?_eq_some_iff.1 hlast
    have htext : text = String.ofList (front ++ ['/']) := by rw [← hfront, String.ofList_toList]
    have hjoined : text ++ "" ++ name = String.ofList (front ++ '/' :: name.toList) := by
      rw [htext, ← String.toList_inj]
      simp
    simp only [hlast, decide_true, Bool.true_or, if_true, hjoined, components_slash_name front h,
      ← htext]
  · by_cases hempty : text = ""
    · subst hempty
      have hnone : components ⟨""⟩ = [] := by decide
      simp only [decide_true, Bool.or_true, if_true, String.append_empty, String.empty_append, hnone,
        List.nil_append]
      rw [components_eq, opening, isAbsolute_name h, parts_name h,
        List.filterMap_cons_some (component?_name h)]
      simp [h.2.2.1]
    · have hjoined : text ++ "/" ++ name = String.ofList (text.toList ++ '/' :: name.toList) := by
        rw [← String.toList_inj]
        simp
      have hfront : text.toList ≠ [] := by simpa using hempty
      simp only [hlast, hempty, decide_false, Bool.or_self, Bool.false_eq_true, if_false, hjoined,
        components_slash_name _ h, components_slash _ hfront, String.ofList_toList]

/-- Joining to a joined path is joining once. -/
theorem join_join (base rest : Path) (h : rest.text ≠ "") (name : Path) :
    (base.join rest).join name = base.join (rest.join name) := by
  have hchars : rest.text.toList ≠ [] := by simpa using h
  cases hname : name.isAbsolute with
  | true => simp only [join, hname, if_true]
  | false =>
    rw [join_of_relative _ hname, join_of_relative _ hname]
    have hhead : isAbsolute ⟨rest.text ++ rest.separator ++ name.text⟩ = rest.isAbsolute := by
      simp only [isAbsolute, String.toList_append, List.append_assoc,
        List.head?_append_of_ne_nil _ hchars]
    cases hrest : rest.isAbsolute with
    | true =>
      rw [join_of_absolute _ hrest, join, hhead, hrest]
      rfl
    | false =>
      rw [join_of_relative _ hrest, join_of_relative _ (hhead.trans hrest)]
      have hsame : separator ⟨base.text ++ base.separator ++ rest.text⟩ = rest.separator := by
        simp only [separator, String.toList_append, List.getLast?_append_of_ne_nil _ hchars,
          String.append_eq_empty_iff, h, and_false]
      rw [hsame]
      simp only [String.append_assoc]

/-- What is joined to a path that starts at the root starts there, too. -/
theorem isAbsolute_join {base : Path} (h : base.isAbsolute = true) (rest : Path) :
    (base.join rest).isAbsolute = true := by
  cases hrest : rest.isAbsolute with
  | true => rw [join_of_absolute _ hrest, hrest]
  | false =>
    rw [join_of_relative _ hrest]
    simp only [isAbsolute, decide_eq_true_eq, String.toList_append, List.append_assoc] at h ⊢
    rw [List.head?_append, h]
    rfl

/-- What is joined to a path with some text has some text. -/
theorem text_join_ne_empty {base : Path} (h : base.text ≠ "") (rest : Path) :
    (base.join rest).text ≠ "" := by
  cases hrest : rest.isAbsolute with
  | true =>
    rw [join_of_absolute _ hrest]
    intro hempty
    rw [isAbsolute, hempty] at hrest
    revert hrest
    decide
  | false =>
    rw [join_of_relative _ hrest]
    simp [h]

end LineCoach.Path
