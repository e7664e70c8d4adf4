import Mathlib.Data.List.Forall2
import LineCoach.Proofs.Concrete.Lowering

/-!
# Comments and line continuations between tokens

The grammar allows a comment or the end of a continued line between any two tokens, and puts it
among the children of the node around them. A tree with such extras is compared with the one without
them. The fields of a node are found as before, so that a function keeps its name. The elements of a
side are counted without comments but with line continuations, so that each of these adds one. A
parameter is followed down its first named children, and an extra that comes first hides its name.
What is recorded stays the same exactly when neither happens.
-/

namespace LineCoach.Concrete

/-- The kinds of the nodes that may stand between any two tokens. -/
def extraKinds : List String := ["comment", "line_continuation"]

namespace Node

/-- Whether the node is an extra: a token with a name, without a field, of such a kind. -/
def isExtra (n : Node) : Bool :=
  n.children.isEmpty && n.info.named && n.info.field = "" && extraKinds.contains n.kind

theorem isExtra_iff (n : Node) :
    n.isExtra = true ↔ n.children = [] ∧ n.info.named = true ∧ n.info.field = "" ∧
      (n.kind = "comment" ∨ n.kind = "line_continuation") := by
  simp [isExtra, extraKinds, and_assoc]

mutual

/-- Whether an extra comes before the name of a parameter, on the way along first named children. -/
def leadsToExtra : Node → Bool
  | node info children =>
    info.kind ≠ "identifier" && ((node info children).isExtra || firstLeadsToExtra children)

/-- Whether the first named node of a list leads to an extra. -/
def firstLeadsToExtra : List Node → Bool
  | [] => false
  | n :: rest => if n.info.named then leadsToExtra n else firstLeadsToExtra rest

end

/-- How many line continuations are counted as elements of a side. -/
def continuations (n : Node) : Nat :=
  if sequenceKinds.contains n.kind then
    (n.namedChildren.filter (·.kind = "line_continuation")).length
  else 0

/-- The parameters of a function, extras left out. -/
def parameters (n : Node) : List Node :=
  ((n.childByField? "parameters").map fun list =>
    list.namedChildren.filter fun p => !p.isExtra).getD []

end Node

/-- A node of one source stands for a node of another. Names keep their text. -/
structure Alike (source other : Source) (n m : Node) : Prop where
  kind : m.kind = n.kind
  named : m.info.named = n.info.named
  field : m.info.field = n.info.field
  text : n.kind = "identifier" ∨ n.info.field = "name" → other.slice m = source.slice n

instance (source other : Source) (n m : Node) : Decidable (Alike source other n m) :=
  decidable_of_iff
    (m.kind = n.kind ∧ m.info.named = n.info.named ∧ m.info.field = n.info.field ∧
      (n.kind = "identifier" ∨ n.info.field = "name" → other.slice m = source.slice n))
    ⟨fun ⟨kind, named, field, text⟩ => ⟨kind, named, field, text⟩,
      fun ⟨kind, named, field, text⟩ => ⟨kind, named, field, text⟩⟩

mutual

/-- The second tree is the first with extras put in, anywhere but in tokens. -/
inductive Spread (source other : Source) : Node → Node → Prop
  | token {n m : Node} (alike : Alike source other n m) (token : n.children = [])
      (untouched : m.children = []) : Spread source other n m
  | rule {n m : Node} (alike : Alike source other n m) (rule : n.children ≠ [])
      (below : SpreadAll source other n.children m.children) : Spread source other n m

/-- The second list is the first with extras put in between, and in the trees of the list. -/
inductive SpreadAll (source other : Source) : List Node → List Node → Prop
  | nil : SpreadAll source other [] []
  | cons {n m : Node} {nodes more : List Node} (first : Spread source other n m)
      (rest : SpreadAll source other nodes more) : SpreadAll source other (n :: nodes) (m :: more)
  | extra {m : Node} {nodes more : List Node} (isExtra : m.isExtra = true)
      (rest : SpreadAll source other nodes more) : SpreadAll source other nodes (m :: more)

end

variable {source other : Source} {n m : Node} {nodes more : List Node}

mutual

/-- Decide whether a tree is another one with extras put in. -/
def spreads (source other : Source) (n : Node) : Node → Bool
  | .node info children =>
    decide (Alike source other n (.node info children)) &&
      (n.children.isEmpty && children.isEmpty ||
        !n.children.isEmpty && spreadsAll source other n.children children)

/-- Decide whether a list is another one with extras put in. -/
def spreadsAll (source other : Source) : List Node → List Node → Bool
  | nodes, [] => nodes.isEmpty
  | [], m :: more => m.isExtra && spreadsAll source other [] more
  | n :: nodes, m :: more =>
    spreads source other n m && spreadsAll source other nodes more ||
      m.isExtra && spreadsAll source other (n :: nodes) more

end

mutual

/-- The decision for trees is right. -/
theorem spreads_iff (source other : Source) (n : Node) :
    (m : Node) → (spreads source other n m = true ↔ Spread source other n m)
  | .node info children => by
    have hbelow := spreadsAll_iff source other n.children children
    rw [spreads, Bool.and_eq_true, decide_eq_true_eq]
    constructor
    · rintro ⟨alike, hchildren⟩
      cases hn : n.children.isEmpty with
      | true =>
        have hempty : children = [] := by simpa [hn] using hchildren
        exact .token alike (List.isEmpty_iff.1 hn) hempty
      | false =>
        have hall : spreadsAll source other n.children children = true := by
          simpa [hn] using hchildren
        exact .rule alike (List.isEmpty_eq_false_iff.1 hn) (hbelow.1 hall)
    · intro h
      cases h with
      | token alike token untouched =>
        have hempty : children = [] := untouched
        exact ⟨alike, by simp [token, hempty]⟩
      | rule alike rule below => exact ⟨alike, by simp [rule, hbelow.2 below]⟩

/-- The decision for lists is right. -/
theorem spreadsAll_iff (source other : Source) :
    (nodes more : List Node) → (spreadsAll source other nodes more = true ↔
      SpreadAll source other nodes more)
  | nodes, [] => by
    rw [spreadsAll, List.isEmpty_iff]
    constructor
    · rintro rfl
      exact .nil
    · intro h
      cases h
      rfl
  | [], m :: more => by
    rw [spreadsAll, Bool.and_eq_true, spreadsAll_iff source other [] more]
    constructor
    · rintro ⟨isExtra, rest⟩
      exact .extra isExtra rest
    · intro h
      cases h with
      | extra isExtra rest => exact ⟨isExtra, rest⟩
  | n :: nodes, m :: more => by
    rw [spreadsAll, Bool.or_eq_true, Bool.and_eq_true, Bool.and_eq_true,
      spreads_iff source other n m, spreadsAll_iff source other nodes more,
      spreadsAll_iff source other (n :: nodes) more]
    constructor
    · rintro (⟨first, rest⟩ | ⟨isExtra, rest⟩)
      · exact .cons first rest
      · exact .extra isExtra rest
    · intro h
      cases h with
      | cons first rest => exact .inl ⟨first, rest⟩
      | extra isExtra rest => exact .inr ⟨isExtra, rest⟩

end

instance (source other : Source) (n m : Node) : Decidable (Spread source other n m) :=
  decidable_of_iff _ (spreads_iff source other n m)

theorem Spread.alike (h : Spread source other n m) : Alike source other n m := by
  cases h with
  | token alike token untouched => exact alike
  | rule alike rule below => exact alike

/-- The children of a token are none, those of another node have extras put in. -/
theorem Spread.spreadAll (h : Spread source other n m) :
    SpreadAll source other n.children m.children := by
  cases h with
  | token alike token untouched =>
    rw [token, untouched]
    exact .nil
  | rule alike rule below => exact below

/-- Something remains of a list in which extras are put. -/
theorem SpreadAll.ne_nil (h : SpreadAll source other nodes more) (hne : nodes ≠ []) :
    more ≠ [] := by
  cases h with
  | nil => exact hne
  | cons first rest => exact List.cons_ne_nil _ _
  | extra isExtra rest => exact List.cons_ne_nil _ _

/-- Extras in a tree do not make its root an extra. -/
theorem Spread.isExtra_eq (h : Spread source other n m) : m.isExtra = n.isExtra := by
  have hempty : m.children.isEmpty = n.children.isEmpty := by
    cases h with
    | token alike token untouched => rw [token, untouched]
    | rule alike rule below =>
      rw [List.isEmpty_eq_false_iff.2 rule, List.isEmpty_eq_false_iff.2 (below.ne_nil rule)]
  rw [Node.isExtra, hempty, h.alike.named, h.alike.field, h.alike.kind, Node.isExtra]

/-- The first node with a field is the same one as before, since extras have none. -/
theorem SpreadAll.find?_field (h : SpreadAll source other nodes more) {field : String}
    (hfield : field ≠ "") :
    Option.Rel (Spread source other) (nodes.find? (·.info.field = field))
      (more.find? (·.info.field = field)) := by
  induction more generalizing nodes with
  | nil =>
    cases h
    exact .none
  | cons m more ih =>
    cases h with
    | cons first rest =>
      rw [List.find?_cons, List.find?_cons, first.alike.field]
      split
      · exact .some first
      · exact ih rest
    | extra isExtra rest =>
      obtain ⟨-, -, hnone, -⟩ := m.isExtra_iff.1 isExtra
      rw [List.find?_cons_of_neg (by simp [hnone, hfield.symm])]
      exact ih rest

/-- A field is found on the same child as before. -/
theorem Spread.childByField? (h : Spread source other n m) {field : String} (hfield : field ≠ "") :
    Option.Rel (Spread source other) (n.childByField? field) (m.childByField? field) :=
  h.spreadAll.find?_field hfield

/-- Of the extras put in a list, the line continuations are counted and the comments are not. -/
theorem SpreadAll.length_add (h : SpreadAll source other nodes more) :
    ((more.filter (·.info.named)).filter (·.kind ≠ "comment")).length +
        ((nodes.filter (·.info.named)).filter (·.kind = "line_continuation")).length =
      ((nodes.filter (·.info.named)).filter (·.kind ≠ "comment")).length +
        ((more.filter (·.info.named)).filter (·.kind = "line_continuation")).length := by
  induction more generalizing nodes with
  | nil =>
    cases h
    rfl
  | cons m more ih =>
    cases h with
    | @cons n _ nodes _ first rest =>
      have hrest := ih rest
      have hkind := first.alike.kind
      by_cases hnamed : n.info.named = true
      · have hnamed' : m.info.named = true := first.alike.named.trans hnamed
        by_cases hcomment : n.kind = "comment"
        · simpa [hnamed, hnamed', hkind, hcomment] using hrest
        · by_cases hcontinued : n.kind = "line_continuation"
          · simp [hnamed, hnamed', hkind, hcontinued] at hrest ⊢
            omega
          · simp [hnamed, hnamed', hkind, hcomment, hcontinued] at hrest ⊢
            omega
      · have hnamed' : ¬ m.info.named = true := by rwa [first.alike.named]
        simpa [hnamed, hnamed'] using hrest
    | extra isExtra rest =>
      have hrest := ih rest
      obtain ⟨-, hnamed, -, hkind⟩ := m.isExtra_iff.1 isExtra
      rcases hkind with hcomment | hcontinued
      · simpa [hnamed, hcomment] using hrest
      · simp [hnamed, hcontinued] at hrest ⊢
        omega

/-- Each line continuation put among the elements of a side is counted as one more of them. -/
theorem Spread.arity_add (h : Spread source other n m) :
    m.arity + n.continuations = n.arity + m.continuations := by
  rw [Node.arity, Node.arity, Node.continuations, Node.continuations, h.alike.kind]
  split
  · exact h.spreadAll.length_add
  · rfl

namespace Node

mutual

/-- A parameter that leads to an extra has no name that can be found. -/
theorem parameterName?_eq_none (source : Source) :
    (n : Node) → n.leadsToExtra = true → n.parameterName? source = none
  | node info children, h => by
    rw [leadsToExtra, Bool.and_eq_true, Bool.or_eq_true, decide_eq_true_eq] at h
    obtain ⟨hkind, hextra⟩ := h
    rw [parameterName?, if_neg hkind]
    split
    · rfl
    · rcases hextra with hextra | hbelow
      · have hchildren : children = [] := ((isExtra_iff _).1 hextra).1
        rw [hchildren, firstParameterName?]
      · exact firstParameterName?_eq_none source children hbelow

theorem firstParameterName?_eq_none (source : Source) :
    (nodes : List Node) → firstLeadsToExtra nodes = true → firstParameterName? source nodes = none
  | [], h => by
    rw [firstLeadsToExtra] at h
    cases h
  | n :: rest, h => by
    rw [firstLeadsToExtra] at h
    rw [firstParameterName?]
    split at h
    · next hnamed =>
      rw [if_pos hnamed]
      exact parameterName?_eq_none source n h
    · next hnamed =>
      rw [if_neg hnamed]
      exact firstParameterName?_eq_none source rest h

end

/-- An extra leads to itself. -/
theorem leadsToExtra_of_isExtra {n : Node} (h : n.isExtra = true) : n.leadsToExtra = true := by
  obtain ⟨-, -, -, hkind⟩ := n.isExtra_iff.1 h
  cases n with
  | node info children =>
    have hname : info.kind ≠ "identifier" := by
      rcases hkind with hkind | hkind <;> rw [show info.kind = _ from hkind] <;> decide
    rw [leadsToExtra, h, decide_eq_true hname]
    rfl

end Node

mutual

/-- The name of a parameter is found as before if no extra comes first. -/
theorem Spread.parameterName?_eq {n : Node} :
    {m : Node} → Spread source other n m → m.leadsToExtra = false →
      m.parameterName? other = n.parameterName? source
  | .node info children, h, hlead => by
    have hbelow := h.spreadAll
    have hkind : info.kind = n.kind := h.alike.kind
    have htext := h.alike.text
    rw [Node.leadsToExtra, hkind] at hlead
    cases n with
    | node before nodes =>
      rw [Node.parameterName?, Node.parameterName?, hkind]
      rw [Node.kind, Node.info] at hlead htext ⊢
      split
      · next hidentifier => rw [htext (.inl hidentifier)]
      · next hidentifier =>
        split
        · rfl
        · rw [decide_eq_true hidentifier, Bool.true_and, Bool.or_eq_false_iff] at hlead
          exact hbelow.firstParameterName?_eq hlead.2

theorem SpreadAll.firstParameterName?_eq {nodes : List Node} :
    {more : List Node} → SpreadAll source other nodes more → Node.firstLeadsToExtra more = false →
      Node.firstParameterName? other more = Node.firstParameterName? source nodes
  | [], h, hlead => by
    cases h
    rfl
  | m :: more, h, hlead => by
    rw [Node.firstLeadsToExtra] at hlead
    cases h with
    | cons first rest =>
      rw [Node.firstParameterName?, Node.firstParameterName?, first.alike.named]
      rw [first.alike.named] at hlead
      split at hlead
      · next hnamed =>
        rw [if_pos hnamed, if_pos hnamed]
        exact first.parameterName?_eq hlead
      · next hnamed =>
        rw [if_neg hnamed, if_neg hnamed]
        exact rest.firstParameterName?_eq hlead
    | extra isExtra rest =>
      rw [if_pos (m.isExtra_iff.1 isExtra).2.1, Node.leadsToExtra_of_isExtra isExtra] at hlead
      cases hlead

end

/-- The name of a parameter is found as before, or is not found because an extra comes first. -/
theorem Spread.parameterName?_eq_ite (h : Spread source other n m) :
    m.parameterName? other = if m.leadsToExtra then none else n.parameterName? source := by
  split
  · next hlead => exact m.parameterName?_eq_none other hlead
  · next hlead => exact h.parameterName?_eq (Bool.eq_false_iff.2 hlead)

/-- The named nodes that are not extras stay the same ones. -/
theorem SpreadAll.forall₂ (h : SpreadAll source other nodes more) :
    List.Forall₂ (Spread source other)
      ((nodes.filter (·.info.named)).filter fun n => !n.isExtra)
      ((more.filter (·.info.named)).filter fun n => !n.isExtra) := by
  induction more generalizing nodes with
  | nil =>
    cases h
    exact .nil
  | cons m more ih =>
    cases h with
    | @cons n _ nodes _ first rest =>
      have hnamed := first.alike.named
      have hextra := first.isExtra_eq
      by_cases hkept : n.info.named = true ∧ n.isExtra = false
      · simpa [hnamed, hextra, hkept] using ⟨first, by simpa using ih rest⟩
      · rw [not_and, Bool.not_eq_false] at hkept
        by_cases hn : n.info.named = true
        · simpa [hnamed, hextra, hn, hkept hn] using ih rest
        · simpa [hnamed, hn] using ih rest
    | extra isExtra rest =>
      simpa [isExtra] using ih rest

/-- Extras among the parameters are no parameters. -/
theorem Node.filterMap_parameterName? (source : Source) (nodes : List Node) :
    (nodes.filter fun n => !n.isExtra).filterMap (Node.parameterName? source) =
      nodes.filterMap (Node.parameterName? source) := by
  rw [List.filterMap_filter]
  apply List.filterMap_congr
  intro n hn
  split
  · rfl
  · next hextra =>
    rw [Bool.not_eq_true, Bool.not_eq_false'] at hextra
    rw [n.parameterName?_eq_none source (leadsToExtra_of_isExtra hextra)]

section Hidden

variable {α β γ : Type} {R : α → β → Prop} {f : α → Option γ} {g : β → Option γ}
  {hidden : β → Bool} {as : List α} {bs : List β}

/-- What is found when some entries are hidden is part of what was found before. -/
theorem filterMap_sublist_of_hidden (h : List.Forall₂ R as bs)
    (hfound : ∀ a b, R a b → g b = if hidden b then none else f a) :
    (bs.filterMap g).Sublist (as.filterMap f) := by
  induction h with
  | nil => exact .refl _
  | @cons a b as bs hab _ ih =>
    rw [List.filterMap_cons, List.filterMap_cons, hfound a b hab]
    by_cases hb : hidden b = true
    · rw [if_pos hb]
      cases f a with
      | none => exact ih
      | some c => exact ih.cons c
    · rw [if_neg hb]
      cases f a with
      | none => exact ih
      | some c => exact ih.cons_cons c

/-- Everything is found as before exactly if no entry is hidden that had something to be found. -/
theorem filterMap_eq_iff_of_hidden (h : List.Forall₂ R as bs)
    (hfound : ∀ a b, R a b → g b = if hidden b then none else f a) :
    bs.filterMap g = as.filterMap f ↔
      List.Forall₂ (fun a b => hidden b = true → f a = none) as bs := by
  induction h with
  | nil => exact iff_of_true rfl .nil
  | @cons a b as bs hab hrest ih =>
    rw [List.filterMap_cons, List.filterMap_cons, hfound a b hab, List.forall₂_cons, ← ih]
    by_cases hb : hidden b = true
    · rw [if_pos hb]
      cases f a with
      | none => simp
      | some c =>
        -- one entry less is found, and no later one can make up for it
        have hle := (filterMap_sublist_of_hidden hrest hfound).length_le
        refine iff_of_false (fun heq => ?_) (by simp [hb])
        have hlength : (bs.filterMap g).length = (as.filterMap f).length + 1 :=
          congrArg List.length heq
        omega
    · cases f a <;> simp [hb]

end Hidden

/-- A side of an assignment is counted as before exactly if it has as many line continuations. -/
theorem Spread.side_eq_iff (h : Spread source other n m) {field : String} (hfield : field ≠ "")
    (missing : Nat) :
    ((m.childByField? field).map Node.arity).getD missing =
        ((n.childByField? field).map Node.arity).getD missing ↔
      (m.childByField? field).map Node.continuations =
        (n.childByField? field).map Node.continuations := by
  have hfound := h.childByField? hfield
  generalize n.childByField? field = before at hfound ⊢
  generalize m.childByField? field = after at hfound ⊢
  cases hfound with
  | none => simp
  | some hside =>
    have hadd := hside.arity_add
    simp only [Option.map_some, Option.getD_some, Option.some.injEq]
    omega

/-- A function keeps its name, and it keeps the names of its parameters exactly if extras only hide
what has no name. -/
theorem Spread.signature? (h : Spread source other n m) :
    Option.Rel
      (fun before after => after.name = before.name ∧
        (after.parameters = before.parameters ↔
          List.Forall₂ (fun p q => q.leadsToExtra = true → p.parameterName? source = none)
            n.parameters m.parameters))
      (n.signature? source) (m.signature? other) := by
  have hname := h.childByField? (show "name" ≠ "" by decide)
  have hlist := h.childByField? (show "parameters" ≠ "" by decide)
  rw [Node.signature?, Node.signature?, Node.parameters, Node.parameters]
  generalize hn : n.childByField? "name" = name at hname ⊢
  generalize m.childByField? "name" = name' at hname ⊢
  generalize n.childByField? "parameters" = list at hlist ⊢
  generalize m.childByField? "parameters" = list' at hlist ⊢
  cases hname with
  | none => exact .none
  | @some name name' hname =>
    cases hlist with
    | none => exact .none
    | @some list list' hlist =>
      have hfield : name.info.field = "name" := by simpa using List.find?_some hn
      have hlists := filterMap_eq_iff_of_hidden hlist.spreadAll.forall₂
        fun _ _ hspread => hspread.parameterName?_eq_ite
      rw [Node.filterMap_parameterName?, Node.filterMap_parameterName?] at hlists
      refine .some ⟨?_, ?_⟩
      · rw [hname.alike.text (.inr hfield)]
      · rw [List.map_inj_right fun _ _ => String.ofList_injective]
        exact hlists

/-- What is recorded about an assignment stays the same exactly if both sides have as many line
continuations as before. About a function the name is recorded as before, and the names of the
parameters are exactly if no extra comes before one of them inside its parameter. -/
theorem recorded_spread_iff (h : Spread source other n m) :
    (n.kind = "assignment" ∨ n.kind = "augmented_assignment" →
      (detail? other m = detail? source n ↔
        ∀ field ∈ ["left", "right"],
          (m.childByField? field).map Node.continuations =
            (n.childByField? field).map Node.continuations)) ∧
      (n.kind = "function_definition" →
        (detail? source n = none → detail? other m = none) ∧
          ∀ before, detail? source n = some (.function before) →
            ∃ after, detail? other m = some (.function after) ∧ after.name = before.name ∧
              (after.parameters = before.parameters ↔
                List.Forall₂ (fun p q => q.leadsToExtra = true → p.parameterName? source = none)
                  n.parameters m.parameters)) := by
  have hkind := h.alike.kind
  constructor
  · intro hassignment
    have hassigned : kindOf n.kind = .assignment := by
      rcases hassignment with hassignment | hassignment <;> rw [hassignment] <;> decide
    have hleft := h.side_eq_iff (show "left" ≠ "" by decide) 1
    have hright := h.side_eq_iff (show "right" ≠ "" by decide) 0
    simp [detail?, hkind, hassigned, Node.assignmentShape, hleft, hright]
  · intro hfunction
    have hdefined : kindOf n.kind = .functionDefinition := by rw [hfunction]; decide
    have hsignature := h.signature?
    rw [detail?, detail?, hkind, hdefined]
    generalize n.signature? source = before at hsignature ⊢
    generalize m.signature? other = after at hsignature ⊢
    cases hsignature with
    | none => exact ⟨fun _ => rfl, nofun⟩
    | @some before after hrecorded =>
      refine ⟨nofun, fun signature hsome => ⟨after, rfl, ?_⟩⟩
      cases hsome
      exact hrecorded

namespace Sample

/-- The place some bytes further on a line. -/
def after (count : Nat) (place : Nat × Point) : Nat × Point :=
  (place.1 + count, ⟨place.2.row, place.2.column + count⟩)

/-- A token that is one byte long. -/
def char (kind : String) (place : Nat × Point) : Node :=
  token kind place (after 1 place)

/-- A name or a value that is one byte long. -/
def short (field kind : String) (place : Nat × Point) : Node :=
  part field kind place (after 1 place) []

/-- The function `def f(…): 0` with the children and the end of its list of parameters. -/
def function (list : List Node) (stop : Nat × Point) : Node :=
  part "" "function_definition" (0, ⟨0, 0⟩) (after 3 stop) [
    token "def" (0, ⟨0, 0⟩) (3, ⟨0, 3⟩),
    short "name" "identifier" (4, ⟨0, 4⟩),
    part "parameters" "parameters" (5, ⟨0, 5⟩) stop list,
    char ":" stop,
    part "body" "block" (after 2 stop) (after 3 stop) [
      part "" "expression_statement" (after 2 stop) (after 3 stop) [
        short "" "integer" (after 2 stop)]]]

/-- `def f(a, *b): 0` -/
def starred : Node :=
  function [
    char "(" (5, ⟨0, 5⟩),
    short "" "identifier" (6, ⟨0, 6⟩),
    char "," (7, ⟨0, 7⟩),
    part "" "list_splat_pattern" (9, ⟨0, 9⟩) (11, ⟨0, 11⟩) [
      char "*" (9, ⟨0, 9⟩),
      short "" "identifier" (10, ⟨0, 10⟩)],
    char ")" (11, ⟨0, 11⟩)] (12, ⟨0, 12⟩)

/-- The same function with a comment behind its first parameter. -/
def noted : Node :=
  function [
    char "(" (5, ⟨0, 5⟩),
    short "" "identifier" (6, ⟨0, 6⟩),
    char "," (7, ⟨0, 7⟩),
    part "" "comment" (10, ⟨0, 10⟩) (14, ⟨0, 14⟩) [],
    part "" "list_splat_pattern" (16, ⟨1, 1⟩) (18, ⟨1, 3⟩) [
      char "*" (16, ⟨1, 1⟩),
      short "" "identifier" (17, ⟨1, 2⟩)],
    char ")" (18, ⟨1, 3⟩)] (19, ⟨1, 4⟩)

/-- The same function with a comment behind the star of its second parameter. -/
def interrupted : Node :=
  function [
    char "(" (5, ⟨0, 5⟩),
    short "" "identifier" (6, ⟨0, 6⟩),
    char "," (7, ⟨0, 7⟩),
    part "" "list_splat_pattern" (9, ⟨0, 9⟩) (18, ⟨1, 2⟩) [
      char "*" (9, ⟨0, 9⟩),
      part "" "comment" (12, ⟨0, 12⟩) (15, ⟨0, 15⟩) [],
      short "" "identifier" (17, ⟨1, 1⟩)],
    char ")" (18, ⟨1, 2⟩)] (19, ⟨1, 3⟩)

/-- The assignment `a, b = …` with the children and the end of its right side. -/
def pair (values : List Node) (stop : Nat × Point) : Node :=
  part "" "assignment" (0, ⟨0, 0⟩) stop [
    part "left" "pattern_list" (0, ⟨0, 0⟩) (4, ⟨0, 4⟩) [
      short "" "identifier" (0, ⟨0, 0⟩),
      char "," (1, ⟨0, 1⟩),
      short "" "identifier" (3, ⟨0, 3⟩)],
    char "=" (5, ⟨0, 5⟩),
    part "right" "expression_list" (7, ⟨0, 7⟩) stop values]

/-- `a, b = 1, 2` -/
def balanced : Node :=
  pair [
    short "" "integer" (7, ⟨0, 7⟩),
    char "," (8, ⟨0, 8⟩),
    short "" "integer" (10, ⟨0, 10⟩)] (11, ⟨0, 11⟩)

/-- The same assignment, continued on a second line before its last value. -/
def continued : Node :=
  pair [
    short "" "integer" (7, ⟨0, 7⟩),
    char "," (8, ⟨0, 8⟩),
    part "" "line_continuation" (10, ⟨0, 10⟩) (12, ⟨1, 0⟩) [],
    short "" "integer" (16, ⟨1, 4⟩)] (17, ⟨1, 5⟩)

end Sample

/-- A comment behind a parameter hides nothing, and both names are recorded as before. -/
theorem recorded_spread_iff_sample :
    let source := Source.ofString "def f(a, *b): 0\n"
    let other := Source.ofString "def f(a,  # é\n *b): 0\n"
    Spread source other Sample.starred Sample.noted ∧
      ∃ after, detail? other Sample.noted = some (.function after) ∧
        after.name = "f" ∧ after.parameters = ["a", "b"] := by
  intro source other
  have hspread : Spread source other Sample.starred Sample.noted := by decide
  have hbefore : detail? source Sample.starred = some (.function ⟨"f", ["a", "b"], 7⟩) := by decide
  obtain ⟨after, hafter, hname, hparameters⟩ :=
    ((recorded_spread_iff hspread).2 (by decide)).2 _ hbefore
  exact ⟨hspread, after, hafter, hname, hparameters.2 (by decide)⟩

/-- A continued line before a value is one more value, and a comment behind the star of a parameter
takes its name away. -/
theorem recorded_changes_with_extras :
    (let source := Source.ofString "a, b = 1, 2\n"
      let other := Source.ofString "a, b = 1, \\\n    2\n"
      Spread source other Sample.balanced Sample.continued ∧
        detail? source Sample.balanced = some (.assignment ⟨2, 2⟩) ∧
        detail? other Sample.continued = some (.assignment ⟨2, 3⟩)) ∧
      (let source := Source.ofString "def f(a, *b): 0\n"
        let other := Source.ofString "def f(a, *  # c\n b): 0\n"
        Spread source other Sample.starred Sample.interrupted ∧
          ∃ before after, detail? source Sample.starred = some (.function before) ∧
            detail? other Sample.interrupted = some (.function after) ∧
            before.parameters = ["a", "b"] ∧ after.parameters = ["a"]) := by
  refine ⟨⟨by decide, by decide, by decide⟩, by decide, ?_⟩
  exact ⟨⟨"f", ["a", "b"], 7⟩, ⟨"f", ["a"], 12⟩, by decide⟩

end LineCoach.Concrete
