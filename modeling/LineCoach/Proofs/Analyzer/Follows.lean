import Mathlib.Data.List.Basic
import LineCoach.Analyzer.Run

/-!
# Runs that follow a plan

A plan for a run says when the run passes, what an observer has then seen of it and how it ends,
and what can be seen of it when it breaks off instead. Both sides are kept together because a loop
needs both: the items before the one that fails have passed. The plan of a loop comes from the
plans of its items, whatever the loop is over, so that nested loops are planned from the inside.
-/

namespace LineCoach

/-- Items are dealt with in turn, and one of them fails: those before it pass and leave their
records, it leaves a part of its own, and those after it leave nothing. -/
inductive Interrupted {ω ε ι : Type} (passes : ι → Prop) (record : ι → List ω)
    (fails : ι → ε → List ω → Prop) : List ι → ε → List ω → Prop
  | intro {before : List ι} {item : ι} {after : List ι} {error : ε} {part : List ω}
      (earlier : ∀ other ∈ before, passes other) (failed : fails item error part) :
      Interrupted passes record fails (before ++ item :: after) error
        (before.flatMap record ++ part)

namespace Interrupted

variable {ω ε ι : Type} {passes : ι → Prop} {record : ι → List ω} {fails : ι → ε → List ω → Prop}
  {item : ι} {items : List ι} {error : ε} {part : List ω}

/-- The first item fails. -/
theorem head (h : fails item error part) :
    Interrupted passes record fails (item :: items) error part := by
  have earlier : ∀ other ∈ ([] : List ι), passes other := by simp
  exact intro earlier h

/-- The first item passes, and a later one fails. -/
theorem tail (hitem : passes item) (h : Interrupted passes record fails items error part) :
    Interrupted passes record fails (item :: items) error (record item ++ part) := by
  obtain @⟨before, stop, after, _, rest, earlier, failed⟩ := h
  rw [← List.append_assoc, ← List.flatMap_cons, ← List.cons_append]
  refine intro ?_ failed
  intro other hother
  obtain rfl | hother := List.mem_cons.1 hother
  · exact hitem
  · exact earlier other hother

/-- What an interrupted loop leaves begins what the whole loop would have left. -/
theorem isPrefix (hfails : ∀ stop stopError rest, fails stop stopError rest → rest <+: record stop)
    (h : Interrupted passes record fails items error part) : part <+: items.flatMap record := by
  obtain @⟨before, stop, after, _, rest, earlier, failed⟩ := h
  rw [List.flatMap_append, List.flatMap_cons, List.prefix_append_right_inj]
  exact (hfails stop error rest failed).trans (List.prefix_append _ _)

/-- One of the items has failed, with the error of the loop. -/
theorem exists_fails (h : Interrupted passes record fails items error part) :
    ∃ stop ∈ items, ∃ rest, fails stop error rest := by
  obtain @⟨before, stop, after, _, rest, earlier, failed⟩ := h
  exact ⟨stop, List.mem_append_right _ List.mem_cons_self, rest, failed⟩

end Interrupted

namespace Run

variable {ω ε α β σ ι : Type}

/-- What an observer sees of a run, in order. -/
def seen (observe : Occurrence → Option ω) (run : Run ε α) : List ω :=
  run.trace.filterMap observe

/-- The events are what an observer of events sees. -/
theorem events_eq_seen (run : Run ε α) : run.events = run.seen Occurrence.event? := rfl

/-- A run goes on with its result. -/
theorem bind_of_ok {run : Run ε α} {a : α} (next : α → Run ε β) (h : run.outcome = .ok a) :
    run >>= next = ⟨run.trace ++ (next a).trace, (next a).outcome⟩ := by
  change Run.bind run next = _
  rw [Run.bind, h]

/-- A run that failed does not go on. -/
theorem bind_of_error {run : Run ε α} {e : ε} (next : α → Run ε β) (h : run.outcome = .error e) :
    run >>= next = ⟨run.trace, .error e⟩ := by
  change Run.bind run next = _
  rw [Run.bind, h]

/-- To end with the result that one has changes nothing. -/
theorem bind_return (run : Run ε α) : run >>= pure = run := by
  cases houtcome : run.outcome with
  | error e =>
    rw [bind_of_error _ houtcome, ← houtcome]
  | ok a =>
    rw [bind_of_ok _ houtcome]
    change Run.mk (run.trace ++ []) (.ok a) = run
    rw [List.append_nil, ← houtcome]

/-- It does not matter which steps of a run are taken together. -/
theorem bind_bind {γ : Type} (run : Run ε α) (next : α → Run ε β) (last : β → Run ε γ) :
    run >>= next >>= last = run >>= fun a => next a >>= last := by
  cases houtcome : run.outcome with
  | error e =>
    rw [bind_of_error _ houtcome, bind_of_error _ houtcome, bind_of_error _ rfl]
  | ok a =>
    rw [bind_of_ok _ houtcome, bind_of_ok _ houtcome]
    cases hnext : (next a).outcome with
    | error e => rw [bind_of_error _ rfl, bind_of_error _ hnext]
    | ok b => rw [bind_of_ok _ rfl, bind_of_ok _ hnext, List.append_assoc]

instance : LawfulMonad (Run ε) :=
  LawfulMonad.mk' _ bind_return (fun _ _ => rfl) bind_bind

/-- Two runs end in the same way, and the observer cannot tell them apart. -/
structure Alike (observe : Occurrence → Option ω) (run run' : Run ε α) : Prop where
  outcome : run.outcome = run'.outcome
  seen : run.seen observe = run'.seen observe

namespace Alike

variable {observe : Occurrence → Option ω} {run run' run'' : Run ε α}

theorem refl (run : Run ε α) : Alike observe run run := ⟨rfl, rfl⟩

theorem trans (h : Alike observe run run') (h' : Alike observe run' run'') :
    Alike observe run run'' :=
  ⟨h.outcome.trans h'.outcome, h.seen.trans h'.seen⟩

/-- What is done after two runs that look alike, alike, looks alike. -/
theorem bind {next next' : α → Run ε β} (h : Alike observe run run')
    (hnext : ∀ a, Alike observe (next a) (next' a)) :
    Alike observe (run >>= next) (run' >>= next') := by
  cases houtcome : run.outcome with
  | error e =>
    rw [bind_of_error _ houtcome, bind_of_error _ (h.outcome ▸ houtcome)]
    exact ⟨rfl, h.seen⟩
  | ok a =>
    rw [bind_of_ok _ houtcome, bind_of_ok _ (h.outcome ▸ houtcome)]
    refine ⟨(hnext a).outcome, ?_⟩
    simp only [Run.seen, List.filterMap_append]
    exact congrArg₂ _ h.seen (hnext a).seen

/-- A step that the observer does not see may be left out. -/
theorem unseen {step : Run ε Unit} (hstep : step.outcome = .ok ())
    (hseen : step.seen observe = []) (next : Run ε α) :
    Alike observe (step >>= fun _ => next) next := by
  rw [bind_of_ok _ hstep]
  refine ⟨rfl, ?_⟩
  simp only [Run.seen, List.filterMap_append]
  exact congrArg (fun before => before ++ next.seen observe) hseen

end Alike

/-- The run keeps to a plan. If it is to pass, the observer sees `record` and the end is `result`;
if not, it breaks off, and `fails` tells with which error and after what was seen. -/
structure Follows (observe : Occurrence → Option ω) (run : Run ε α) (passes : Prop)
    (record : List ω) (result : α) (fails : ε → List ω → Prop) : Prop where
  ends : passes → run.outcome = .ok result ∧ run.seen observe = record
  breaks : ¬ passes → ∃ error, run.outcome = .error error ∧ fails error (run.seen observe)

/-- Do the same with every item in turn and put the results together. A failure ends the loop. -/
def each (visit : ι → Run ε σ) (merge : σ → σ → σ) (zero : σ) : List ι → Run ε σ
  | [] => return zero
  | item :: rest => do
    let here ← visit item
    let more ← each visit merge zero rest
    return merge here more

namespace Follows

variable {observe : Occurrence → Option ω} {run : Run ε α} {next : Run ε β} {passes passes' : Prop}
  {record record' : List ω} {result : α} {result' : β} {fails fails' : ε → List ω → Prop}

/-- A run that ended well was to pass, and it left what the plan says. -/
theorem of_ok (h : run.Follows observe passes record result fails) {a : α}
    (hok : run.outcome = .ok a) : passes ∧ a = result ∧ run.seen observe = record := by
  have hpasses : passes := by
    by_contra hnot
    obtain ⟨error, herror, -⟩ := h.breaks hnot
    rw [hok] at herror
    cases herror
  obtain ⟨hend, hseen⟩ := h.ends hpasses
  rw [hok] at hend
  exact ⟨hpasses, Except.ok.inj hend, hseen⟩

/-- A run that failed broke off as the plan says. -/
theorem of_error (h : run.Follows observe passes record result fails) {error : ε}
    (herror : run.outcome = .error error) : ¬ passes ∧ fails error (run.seen observe) := by
  have hnot : ¬ passes := by
    intro hpasses
    have hend := (h.ends hpasses).1
    rw [herror] at hend
    cases hend
  obtain ⟨error', herror', hfails⟩ := h.breaks hnot
  rw [herror] at herror'
  cases herror'
  exact ⟨hnot, hfails⟩

/-- However a run ends, what is seen of it begins what was planned, if a failure leaves no other
things behind. -/
theorem seen_isPrefix (h : run.Follows observe passes record result fails)
    (hfails : ∀ error part, fails error part → part <+: record) : run.seen observe <+: record := by
  by_cases hpasses : passes
  · exact (h.ends hpasses).2 ▸ List.prefix_rfl
  · obtain ⟨error, -, hpart⟩ := h.breaks hpasses
    exact hfails error _ hpart

/-- A plan may be told in other words. -/
theorem congr {result' : α} (h : run.Follows observe passes record result fails)
    (hpasses : passes ↔ passes') (hrecord : record = record') (hresult : result = result')
    (hfails : ∀ error part, ¬ passes → fails error part → fails' error part) :
    run.Follows observe passes' record' result' fails' where
  ends hpasses' := by
    rw [← hrecord, ← hresult]
    exact h.ends (hpasses.2 hpasses')
  breaks hnot := by
    have hnot' : ¬ passes := fun hpass => hnot (hpasses.1 hpass)
    obtain ⟨error, herror, hfail⟩ := h.breaks hnot'
    exact ⟨error, herror, hfails error _ hnot' hfail⟩

/-- A run is to pass and does. -/
theorem of_passes (hpasses : passes) (hend : run.outcome = .ok result)
    (hseen : run.seen observe = record) : run.Follows observe passes record result fails where
  ends _ := ⟨hend, hseen⟩
  breaks hnot := absurd hpasses hnot

/-- A run is not to pass and fails at once. -/
theorem of_fails {error : ε} (hnot : ¬ passes) (hfails : fails error []) :
    (Run.fail error : Run ε α).Follows observe passes record result fails where
  ends hpasses := absurd hpasses hnot
  breaks _ := ⟨error, rfl, hfails⟩

/-- Two runs one after the other: both have to pass, and the second starts only if the first
passed. -/
theorem bind (next : α → Run ε β) (h : run.Follows observe passes record result fails)
    (h' : (next result).Follows observe passes' record' result' fails') :
    (run >>= next).Follows observe (passes ∧ passes') (record ++ record') result'
      (fun error part =>
        fails error part ∨ passes ∧ ∃ rest, fails' error rest ∧ part = record ++ rest) := by
  by_cases hpasses : passes
  · obtain ⟨hend, hrecord⟩ := h.ends hpasses
    have hseen : (⟨run.trace ++ (next result).trace, (next result).outcome⟩ : Run ε β).seen observe =
        record ++ (next result).seen observe := by
      rw [← hrecord]
      exact List.filterMap_append
    rw [bind_of_ok next hend]
    refine ⟨?_, ?_⟩
    · intro hboth
      obtain ⟨hend', hrecord'⟩ := h'.ends hboth.2
      exact ⟨hend', by rw [hseen, hrecord']⟩
    · intro hnot
      obtain ⟨error, herror, hpart⟩ := h'.breaks (fun hpasses' => hnot ⟨hpasses, hpasses'⟩)
      exact ⟨error, herror, Or.inr ⟨hpasses, _, hpart, hseen⟩⟩
  · obtain ⟨error, herror, hpart⟩ := h.breaks hpasses
    rw [bind_of_error next herror]
    exact ⟨fun hboth => absurd hboth.1 hpasses, fun _ => ⟨error, rfl, Or.inl hpart⟩⟩

/-- A run that looks alike follows the same plan. -/
theorem alike {run' : Run ε α} (halike : Alike observe run' run)
    (h : run.Follows observe passes record result fails) :
    run'.Follows observe passes record result fails := by
  refine ⟨?_, ?_⟩
  · rw [halike.outcome, halike.seen]
    exact h.ends
  · rw [halike.outcome, halike.seen]
    exact h.breaks

/-- The result may be worked on at the end. -/
theorem map (f : α → β) (h : run.Follows observe passes record result fails) :
    (do return f (← run)).Follows observe passes record (f result) fails := by
  have hreturn : (pure (f result) : Run ε β).Follows observe True [] (f result) fun _ _ => False :=
    of_passes trivial rfl rfl
  refine (h.bind (fun a => pure (f a)) hreturn).congr (by rw [and_true]) (List.append_nil record) rfl ?_
  rintro error part - (hpart | ⟨-, rest, hfalse, -⟩)
  · exact hpart
  · exact hfalse.elim

end Follows

/-- A loop follows the plans of its items: all have to pass, and the first that fails ends it. -/
theorem follows_each {observe : Occurrence → Option ω} {visit : ι → Run ε σ} {passes : ι → Prop}
    {record : ι → List ω} {result : ι → σ} {fails : ι → ε → List ω → Prop}
    (merge : σ → σ → σ) (zero : σ)
    (h : ∀ item, (visit item).Follows observe (passes item) (record item) (result item) (fails item))
    (items : List ι) :
    (each visit merge zero items).Follows observe (∀ item ∈ items, passes item)
      (items.flatMap record) ((items.map result).foldr merge zero)
      (Interrupted passes record fails items) := by
  induction items with
  | nil =>
    have hpasses : ∀ item ∈ ([] : List ι), passes item := by simp
    exact Follows.of_passes hpasses rfl rfl
  | cons item rest ih =>
    have hstep := (h item).bind (fun here => do return merge here (← each visit merge zero rest))
      (ih.map (merge (result item)))
    refine hstep.congr (List.forall_mem_cons).symm rfl rfl ?_
    rintro error part - (hhere | ⟨hpassed, later, hlater, rfl⟩)
    · exact Interrupted.head hhere
    · exact Interrupted.tail hpassed hlater

end Run

end LineCoach
