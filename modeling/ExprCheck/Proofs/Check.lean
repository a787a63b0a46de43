/-
ExprCheck.Proofs.Check — what a check does to the sink it is given.

A check reads and extends the sink, so in principle what was reported before could
decide how it goes on. `Check.Runs m a new` says that it does not: on every sink the
check yields `a` and puts the same problems `new` at the end. `Check.Faults` is the
same for a run that ends early.

`Check.Meets m post fault` is the form in which the functions of this library are
specified, one statement for each: the check runs in the sense above and what it
yields and reports meets `post`, or it faults and then `fault` holds. With `False`
for `fault` it says that the check never faults, and with `True` that earlier reports
do not matter even where it does.

`Check.Silent` is a run without reports. A sequence of such checks is silent if and only
if every step is (`silent_bind_iff`), which turns what is known of an accepted text into
what is known of its parts.

`Check.AppendOnly` says of a check in one equation what `RunsUnless m True` says of it: how
it goes from any sink is read off how it goes from the empty one (`appendOnly_iff`).

`Check.Matches R m m'` sets two checks side by side: they report the same problems, at
whatever places, and yield results that `R` relates, or both end in one fault. Matching
checks go on matching under the same steps (`Matches.bind`, `Matches.watch`).
-/
import ExprCheck.Diagnostic
import Mathlib.Data.List.Forall2

namespace ExprCheck

/-! ## 1. Sinks -/

namespace Diagnostics

/-- More problems at the end of the sink. -/
def append (ds : Diagnostics) (more : List Diagnostic) : Diagnostics :=
  ⟨ds.entries ++ more.toArray⟩

instance : HAppend Diagnostics (List Diagnostic) Diagnostics := ⟨append⟩

theorem append_def (ds : Diagnostics) (more : List Diagnostic) :
    ds ++ more = ⟨ds.entries ++ more.toArray⟩ := rfl

@[simp] theorem append_nil (ds : Diagnostics) : ds ++ ([] : List Diagnostic) = ds := by
  simp [append_def]

@[simp] theorem append_append (ds : Diagnostics) (new more : List Diagnostic) :
    ds ++ new ++ more = ds ++ (new ++ more) := by
  simp [append_def]

@[simp] theorem toList_append (ds : Diagnostics) (new : List Diagnostic) :
    (ds ++ new).toList = ds.toList ++ new := by
  simp [append_def, toList]

theorem push_eq_append (ds : Diagnostics) (p : Problem) (pos : Position) :
    ds.push p pos = ds ++ [Diagnostic.mk p pos] := by
  simp [append_def, push]

theorem size_append (ds : Diagnostics) (new : List Diagnostic) :
    (ds ++ new).size = ds.size + new.length := by
  rw [← length_toList, ← length_toList, toList_append, List.length_append]

/-- What was added to a sink can be read off it. -/
theorem append_cancel {ds : Diagnostics} {new more : List Diagnostic}
    (h : ds ++ new = ds ++ more) : new = more := by
  have := congrArg toList h
  simpa using this

end Diagnostics

namespace Check

/-! ## 2. Runs that do not depend on the sink -/

/-- On every sink the check yields `a` and reports `new`. -/
def Runs (m : Check α) (a : α) (new : List Diagnostic) : Prop :=
  ∀ ds, m.run ds = .ok (a, ds ++ new)

/-- On every sink the check ends in the fault. -/
def Faults (m : Check α) (f : Fault) : Prop := ∀ ds, m.run ds = .error f

theorem runs_pure (a : α) : Runs (pure a) a [] := by
  intro ds
  simp only [StateT.run_pure, Diagnostics.append_nil]
  rfl

theorem runs_report (p : Problem) (pos : Position) : Runs (report p pos) () [⟨p, pos⟩] := by
  intro ds
  rw [← Diagnostics.push_eq_append]
  rfl

theorem Runs.bind {m : Check α} {f : α → Check β} {a : α} {b : β} {new more : List Diagnostic}
    (hm : Runs m a new) (hf : Runs (f a) b more) : Runs (m >>= f) b (new ++ more) := by
  intro ds
  rw [StateT.run_bind, hm ds]
  show (f a).run (ds ++ new) = _
  rw [hf (ds ++ new), Diagnostics.append_append]

/-- A result that is worked on without a report. -/
theorem Runs.bind_silent {m : Check α} {f : α → Check β} {a : α} {b : β}
    {new : List Diagnostic} (hm : Runs m a new) (hf : Runs (f a) b []) :
    Runs (m >>= f) b new := by
  have h := hm.bind hf
  rwa [List.append_nil] at h

theorem Runs.bind_faults {m : Check α} {f : α → Check β} {a : α} {new : List Diagnostic}
    {fault : Fault} (hm : Runs m a new) (hf : Faults (f a) fault) : Faults (m >>= f) fault := by
  intro ds
  rw [StateT.run_bind, hm ds]
  exact hf (ds ++ new)

theorem Faults.bind {m : Check α} {fault : Fault} (hm : Faults m fault) (f : α → Check β) :
    Faults (m >>= f) fault := by
  intro ds
  rw [StateT.run_bind, hm ds]
  rfl

/-- Something was reported exactly when the sink grew. -/
theorem Runs.watch {m : Check α} {a : α} {new : List Diagnostic} (h : Runs m a new) :
    Runs (watch m) (a, !new.isEmpty) new := by
  intro ds
  have hgrew : decide (ds.size < (ds ++ new).size) = !new.isEmpty := by
    rw [Diagnostics.size_append]
    cases new <;> simp
  simp only [Check.watch, StateT.run_bind, StateT.run_get, pure_bind, h ds]
  show Except.ok ((a, decide (ds.size < (ds ++ new).size)), ds ++ new) = _
  rw [hgrew]

theorem Faults.watch {m : Check α} {f : Fault} (h : Faults m f) : Faults (watch m) f := by
  intro ds
  simp only [Check.watch, StateT.run_bind, StateT.run_get, pure_bind, h ds]
  rfl

/-- A check runs in one way only. -/
theorem Runs.unique {m : Check α} {a b : α} {new more : List Diagnostic}
    (h : Runs m a new) (h' : Runs m b more) : a = b ∧ new = more := by
  have he := (h .empty).symm.trans (h' .empty)
  simp only [Except.ok.injEq, Prod.mk.injEq] at he
  exact ⟨he.1, Diagnostics.append_cancel he.2⟩

/-- A check that runs does not fault. -/
theorem Runs.not_faults {m : Check α} {a : α} {new : List Diagnostic} {f : Fault}
    (h : Runs m a new) : ¬Faults m f := by
  intro hf
  have := (h .empty).symm.trans (hf .empty)
  simp at this

/-! ## 3. Specifications -/

/-- The check runs and what it yields and reports meets `post`, or it faults, and then
`fault` holds. -/
def Meets (m : Check α) (post : α → List Diagnostic → Prop) (fault : Prop) : Prop :=
  (∃ a new, Runs m a new ∧ post a new) ∨ (fault ∧ ∃ f, Faults m f)

/-- The check runs, whatever it yields, unless `fault` holds. -/
abbrev RunsUnless (m : Check α) (fault : Prop) : Prop := Meets m (fun _ _ => True) fault

variable {post : α → List Diagnostic → Prop} {fault : Prop}

theorem meets_of_runs {m : Check α} {a : α} {new : List Diagnostic} (h : Runs m a new)
    (hp : post a new) : Meets m post fault := .inl ⟨a, new, h, hp⟩

theorem meets_pure {a : α} (h : post a []) : Meets (pure a) post fault :=
  meets_of_runs (runs_pure a) h

theorem meets_report {P : Unit → List Diagnostic → Prop} {p : Problem} {pos : Position}
    (h : P () [⟨p, pos⟩]) : Meets (report p pos) P fault :=
  meets_of_runs (runs_report p pos) h

theorem Meets.bind {m : Check α} {f : α → Check β} {P : α → List Diagnostic → Prop}
    {Q : β → List Diagnostic → Prop} (hm : Meets m P fault)
    (hf : ∀ a new, P a new → Meets (f a) (fun b more => Q b (new ++ more)) fault) :
    Meets (m >>= f) Q fault := by
  rcases hm with ⟨a, new, hrun, hpost⟩ | ⟨hfault, e, he⟩
  · rcases hf a new hpost with ⟨b, more, hrun', hpost'⟩ | ⟨hfault, e, he⟩
    · exact .inl ⟨b, new ++ more, hrun.bind hrun', hpost'⟩
    · exact .inr ⟨hfault, e, hrun.bind_faults he⟩
  · exact .inr ⟨hfault, e, he.bind f⟩

/-- A report, and then what does not depend on it. -/
theorem meets_report_bind {p : Problem} {pos : Position} {m : Check α}
    (h : Meets m (fun a more => post a ([⟨p, pos⟩] ++ more)) fault) :
    Meets (report p pos >>= fun _ => m) post fault := by
  refine (meets_report (P := fun _ new => new = [⟨p, pos⟩]) rfl).bind ?_
  rintro _ new rfl
  exact h

theorem meets_report_pure {p : Problem} {pos : Position} {a : α} (h : post a [⟨p, pos⟩]) :
    Meets (report p pos >>= fun _ => pure a) post fault :=
  meets_report_bind (meets_pure h)

/-- A step that reports nothing but may fault. -/
theorem meets_liftM {x : Except Fault α} (h : ∀ a, x = .ok a → post a [])
    (hf : (∃ a, x = .ok a) ∨ fault) : Meets (liftM x : Check α) post fault := by
  cases x with
  | ok a => exact meets_of_runs (runs_pure a) (h a rfl)
  | error e =>
    rcases hf with ⟨a, ha⟩ | hf
    · cases ha
    · exact .inr ⟨hf, e, fun _ => rfl⟩

theorem Meets.mono {m : Check α} {post' : α → List Diagnostic → Prop} {fault' : Prop}
    (h : Meets m post fault) (hpost : ∀ a new, post a new → post' a new)
    (hfault : fault → fault') : Meets m post' fault' := by
  rcases h with ⟨a, new, hrun, hp⟩ | ⟨hf, e, he⟩
  · exact .inl ⟨a, new, hrun, hpost a new hp⟩
  · exact .inr ⟨hfault hf, e, he⟩

/-- A check that never faults does so wherever faults are allowed. -/
theorem Meets.of_faultless {m : Check α} (h : Meets m post False) : Meets m post fault :=
  h.mono (fun _ _ hp => hp) False.elim

theorem Meets.watch {m : Check α} (h : Meets m post fault) :
    Meets (Check.watch m) (fun r new => r.2 = !new.isEmpty ∧ post r.1 new) fault := by
  rcases h with ⟨a, new, hrun, hp⟩ | ⟨hf, e, he⟩
  · exact .inl ⟨(a, !new.isEmpty), new, hrun.watch, rfl, hp⟩
  · exact .inr ⟨hf, e, he.watch⟩

/-- What a check yields is what it runs to. -/
theorem Meets.and_runs {m : Check α} (h : Meets m post fault) :
    Meets m (fun a new => Runs m a new ∧ post a new) fault := by
  rcases h with ⟨a, new, hrun, hp⟩ | h
  · exact .inl ⟨a, new, hrun, hrun, hp⟩
  · exact .inr h

/-- Where no fault is possible the check runs. -/
theorem Meets.runs {m : Check α} (h : Meets m post fault) (hf : ¬fault) :
    ∃ a new, Runs m a new ∧ post a new := by
  rcases h with h | ⟨hfault, -⟩
  · exact h
  · exact absurd hfault hf

theorem RunsUnless.exists_run {m : Check α} (h : RunsUnless m fault) (hf : ¬fault) :
    ∃ a new, Runs m a new := by
  obtain ⟨a, new, hrun, -⟩ := Meets.runs h hf
  exact ⟨a, new, hrun⟩

/-- What is known of the run a specified check has. -/
theorem Meets.of_runs {m : Check α} {a : α} {new : List Diagnostic} (h : Meets m post fault)
    (hrun : Runs m a new) : post a new := by
  rcases h with ⟨b, more, hrun', hp⟩ | ⟨-, e, he⟩
  · obtain ⟨rfl, rfl⟩ := hrun.unique hrun'
    exact hp
  · exact absurd he hrun.not_faults

/-- What is known of a single run that came to a result. -/
theorem Meets.of_run {m : Check α} {a : α} {ds ds' : Diagnostics} (h : Meets m post fault)
    (hrun : m.run ds = .ok (a, ds')) : ∃ new, ds' = ds ++ new ∧ post a new := by
  rcases h with ⟨b, new, hb, hp⟩ | ⟨-, e, he⟩
  · have heq := (hb ds).symm.trans hrun
    simp only [Except.ok.injEq, Prod.mk.injEq] at heq
    exact ⟨new, heq.2.symm, heq.1 ▸ hp⟩
  · have heq := (he ds).symm.trans hrun
    cases heq

/-! ## 4. Loops -/

theorem runs_forM {f : α → Check Unit} (h : ∀ a, RunsUnless (f a) fault) :
    ∀ as : List α, RunsUnless (as.forM f) fault
  | [] => meets_pure trivial
  | a :: as => (h a).bind fun _ _ _ => runs_forM h as

theorem runs_mapM {f : α → Check β} (h : ∀ a, RunsUnless (f a) fault) :
    ∀ as : List α, RunsUnless (as.mapM f) fault
  | [] => by
    rw [List.mapM_nil]
    exact meets_pure trivial
  | a :: as => by
    rw [List.mapM_cons]
    exact (h a).bind fun _ _ _ => (runs_mapM h as).bind fun _ _ _ => meets_pure trivial

/-! ## 5. Runs without reports -/

/-- The check yields `a` and reports nothing, whatever was reported before. -/
abbrev Silent (m : Check α) (a : α) : Prop := Runs m a []

/-- What is specified does not depend on earlier reports. -/
theorem Meets.anyhow {m : Check α} {post : α → List Diagnostic → Prop} {fault : Prop}
    (h : Meets m post fault) : RunsUnless m True :=
  h.mono (fun _ _ _ => trivial) fun _ => trivial

/-- One sink shows whether a check is silent. -/
theorem silent_iff_run {m : Check α} (hm : RunsUnless m True) {a : α} (ds : Diagnostics) :
    Silent m a ↔ m.run ds = .ok (a, ds) := by
  constructor
  · intro h
    rw [h ds, Diagnostics.append_nil]
  · intro h
    obtain ⟨new, hds, hrun, -⟩ := hm.and_runs.of_run h
    have hnew : new = [] := Diagnostics.append_cancel (by rw [Diagnostics.append_nil, ← hds])
    subst hnew
    exact hrun

theorem silent_pure_iff {a b : α} : Silent (pure a) b ↔ b = a := by
  constructor
  · exact fun h => (h.unique (runs_pure a)).1
  · rintro rfl
    exact runs_pure b

theorem not_silent_report {p : Problem} {pos : Position} {u : Unit} :
    ¬Silent (report p pos) u := by
  intro h
  cases (h.unique (runs_report p pos)).2

/-- Two steps are silent together if and only if each of them is. -/
theorem silent_bind_iff {m : Check α} {f : α → Check β} (hm : RunsUnless m True)
    (hf : ∀ a, RunsUnless (f a) True) {b : β} :
    Silent (m >>= f) b ↔ ∃ a, Silent m a ∧ Silent (f a) b := by
  constructor
  · intro h
    have hbind : Meets (m >>= f)
        (fun b new => new = [] → ∃ a, Silent m a ∧ Silent (f a) b) True := by
      refine hm.and_runs.bind fun a new ha => (hf a).and_runs.mono ?_ id
      intro b more hb hnil
      obtain ⟨rfl, rfl⟩ := List.append_eq_nil_iff.1 hnil
      exact ⟨a, ha.1, hb.1⟩
    exact hbind.of_runs h rfl
  · rintro ⟨a, ha, hb⟩
    exact ha.bind hb

theorem not_silent_report_bind {p : Problem} {pos : Position} {m : Check α} {a : α}
    (hm : RunsUnless m True) : ¬Silent (report p pos >>= fun _ => m) a := by
  rw [silent_bind_iff (meets_report trivial) fun _ => hm]
  rintro ⟨_, h, -⟩
  exact not_silent_report h

theorem silent_watch_iff {m : Check α} (hm : RunsUnless m True) {r : α × Bool} :
    Silent (watch m) r ↔ Silent m r.1 ∧ r.2 = false := by
  constructor
  · intro h
    obtain ⟨hr, hrun, -⟩ := (Meets.watch hm.and_runs).of_runs h
    exact ⟨hrun, hr⟩
  · obtain ⟨a, reported⟩ := r
    rintro ⟨h, rfl⟩
    exact Runs.watch h

/-- A loop is silent if and only if every turn is. -/
theorem silent_mapM_iff {f : α → Check β} (hf : ∀ a, RunsUnless (f a) True) {as : List α}
    {bs : List β} : Silent (as.mapM f) bs ↔ List.Forall₂ (fun a b => Silent (f a) b) as bs := by
  induction as generalizing bs with
  | nil => rw [List.mapM_nil, silent_pure_iff, List.forall₂_nil_left_iff]
  | cons a as ih =>
    rw [List.mapM_cons, silent_bind_iff (hf a) fun _ =>
      (runs_mapM hf as).bind fun _ _ _ => meets_pure trivial]
    simp only [silent_bind_iff (runs_mapM hf as) fun _ => meets_pure trivial, silent_pure_iff, ih]
    constructor
    · rintro ⟨b, hb, bs, hbs, rfl⟩
      exact .cons hb hbs
    · intro h
      cases h with
      | cons hb hbs => exact ⟨_, hb, _, hbs, rfl⟩

theorem silent_forM_report_iff {p : Problem} {positions : List Position} {u : Unit} :
    Silent (positions.forM (report p)) u ↔ positions = [] := by
  cases positions with
  | nil => exact iff_of_true (runs_pure _) rfl
  | cons pos positions =>
    refine iff_of_false ?_ (List.cons_ne_nil _ _)
    exact not_silent_report_bind (runs_forM (fun _ => meets_report trivial) positions)

/-! ## 6. Sinks as logs -/

/-- From every sink the check goes as it goes from the empty one, and what it reports
there comes after what was in the sink. A run that faults does so from every sink. -/
def AppendOnly (m : Check α) : Prop :=
  ∀ ds, m.run ds = (m.run .empty).map fun r => (r.1, ds ++ r.2.toList)

theorem appendOnly_of_runs {m : Check α} {a : α} {new : List Diagnostic} (h : Runs m a new) :
    AppendOnly m := by
  intro ds
  have hnew : (Diagnostics.empty ++ new).toList = new := by
    rw [Diagnostics.toList_append, Diagnostics.toList_empty, List.nil_append]
  rw [h ds, h .empty]
  show _ = Except.ok (a, ds ++ (Diagnostics.empty ++ new).toList)
  rw [hnew]

/-- The equation says no more and no less than that earlier reports do not matter. -/
theorem appendOnly_iff {m : Check α} : AppendOnly m ↔ RunsUnless m True := by
  constructor
  · intro h
    cases hrun : m.run .empty with
    | ok r =>
      obtain ⟨a, out⟩ := r
      refine .inl ⟨a, out.toList, fun ds => ?_, trivial⟩
      rw [h ds, hrun]
      rfl
    | error f =>
      refine .inr ⟨trivial, f, fun ds => ?_⟩
      rw [h ds, hrun]
      rfl
  · rintro (⟨a, new, hrun, -⟩ | ⟨-, f, hf⟩)
    · exact appendOnly_of_runs hrun
    · intro ds
      rw [hf ds, hf .empty]
      rfl

/-! ## 7. Checks side by side -/

/-- The checks report the same problems, each at its own places, and what they yield is
related; or they end in the same fault. -/
def Matches (R : α → β → Prop) (m : Check α) (m' : Check β) : Prop :=
  (∃ a new b more, Runs m a new ∧ Runs m' b more ∧ R a b ∧
      new.map (·.problem) = more.map (·.problem)) ∨
    ∃ f, Faults m f ∧ Faults m' f

variable {R : α → β → Prop} {m : Check α} {m' : Check β}

theorem Matches.of_runs {a : α} {b : β} {new more : List Diagnostic} (h : Runs m a new)
    (h' : Runs m' b more) (hR : R a b)
    (hnew : new.map (·.problem) = more.map (·.problem)) : Matches R m m' :=
  .inl ⟨a, new, b, more, h, h', hR, hnew⟩

theorem matches_pure {a : α} {b : β} (h : R a b) : Matches R (pure a) (pure b) :=
  .of_runs (runs_pure a) (runs_pure b) h rfl

theorem matches_report (p : Problem) (pos pos' : Position) :
    Matches (fun _ _ => True) (report p pos) (report p pos') :=
  .of_runs (runs_report p pos) (runs_report p pos') trivial rfl

/-- A check matches itself. -/
theorem RunsUnless.matches_self {R : α → α → Prop} (h : RunsUnless m True) (hR : ∀ a, R a a) :
    Matches R m m := by
  rcases h with ⟨a, new, hrun, -⟩ | ⟨-, f, hf⟩
  · exact .of_runs hrun hrun (hR a) rfl
  · exact .inr ⟨f, hf, hf⟩

theorem Matches.bind {S : γ → δ → Prop} {f : α → Check γ} {f' : β → Check δ}
    (h : Matches R m m') (hf : ∀ a b, R a b → Matches S (f a) (f' b)) :
    Matches S (m >>= f) (m' >>= f') := by
  rcases h with ⟨a, new, b, more, hm, hm', hR, hnew⟩ | ⟨e, he, he'⟩
  · rcases hf a b hR with ⟨c, own, d, own', hc, hd, hS, hown⟩ | ⟨e, he, he'⟩
    · refine .of_runs (hm.bind hc) (hm'.bind hd) hS ?_
      rw [List.map_append, List.map_append, hnew, hown]
    · exact .inr ⟨e, hm.bind_faults he, hm'.bind_faults he'⟩
  · exact .inr ⟨e, he.bind f, he'.bind f'⟩

/-- Of matching checks either both report something or neither does. -/
theorem Matches.watch (h : Matches R m m') :
    Matches (fun r r' => R r.1 r'.1 ∧ r.2 = r'.2) (Check.watch m) (Check.watch m') := by
  rcases h with ⟨a, new, b, more, hm, hm', hR, hnew⟩ | ⟨e, he, he'⟩
  · refine .of_runs hm.watch hm'.watch ⟨hR, ?_⟩ hnew
    have hempty := congrArg List.isEmpty hnew
    rw [List.isEmpty_map, List.isEmpty_map] at hempty
    rw [hempty]
  · exact .inr ⟨e, he.watch, he'.watch⟩

end Check

end ExprCheck
