import ColumnQuery.Plan.Builder

/-! # What a builder makes of its steps

The plan of a builder starts with an input, or with a plan from which it goes on, and grows by a
node with each later step that wraps it; a step that comes at the wrong moment changes nothing.
Building reports the first such step since the last plan that the builder has started from. If there
is none it returns the plan that it has, provided that this is well formed.
-/

namespace ColumnQuery

namespace BuildStep

/-- The plan that a step starts with. -/
def start? : BuildStep → Option Plan
  | input table => some (.input table)
  | restart plan => some plan
  | project _ | filter _ | aggregate _ _ | output => none

/-- A step that starts again from a plan. -/
def Restarts (step : BuildStep) : Prop := ∃ plan, step = restart plan

/-- The name of a step that wraps a plan, and the node that it puts on top. -/
def wrap? : BuildStep → Option (String × (Plan → Plan))
  | project exprs => some ("project", (.project · exprs))
  | filter predicate => some ("filter", (.filter · predicate))
  | aggregate groups aggregates => some ("aggregate", (.aggregate · groups aggregates))
  | output => some ("output", .output)
  | input _ | restart _ => none

/-- What is wrong with a step that comes where there is a plan, or where there is none. -/
def fault? (hasPlan : Bool) : BuildStep → Option String
  | input _ =>
    if hasPlan then some "input() called on a builder that already has an input" else none
  | step =>
    if hasPlan then none else step.wrap?.map fun (name, _) => name ++ "() called before input()"

def started (steps : List BuildStep) : Bool := steps.any fun step => step.start?.isSome

/-- The plan that some steps make. -/
inductive Makes (steps : List BuildStep) : Option Plan → Prop where
  | nothing (unstarted : started steps = false) : Makes steps none
  /-- The first input, or the last plan to start again from, is wrapped by the later steps. -/
  | wrapped {before later : List BuildStep} {origin : BuildStep} {plan : Plan}
      (whole : steps = before ++ origin :: later) (starts : origin.start? = some plan)
      (first : started before = false ∨ origin.Restarts) (last : ∀ step ∈ later, ¬step.Restarts) :
      Makes steps (some ((later.filterMap wrap?).foldl (fun below (_, node) => node below) plan))

/-- The step at a position is at fault, and none from there on starts again. -/
structure MisplacedAt (steps : List BuildStep) (position : Nat) (text : String) : Prop where
  fault : ∃ step, steps[position]? = some step ∧
    step.fault? (started (steps.take position)) = some text
  current : ∀ step ∈ steps.drop position, ¬step.Restarts

/-- No step since the last that starts again is at fault. -/
def WellPlaced (steps : List BuildStep) : Prop := ∀ position text, ¬MisplacedAt steps position text

/-- What is wrong with the first step at fault since the last that starts again. -/
def FirstFault (steps : List BuildStep) (text : String) : Prop :=
  ∃ position, MisplacedAt steps position text ∧
    ∀ earlier < position, ∀ other, ¬MisplacedAt steps earlier other

/-- What building comes to after some steps. -/
inductive Builds (steps : List BuildStep) : Except Error Plan → Prop where
  | misplaced {error : Error} (first : FirstFault steps error.text)
      (kind : error.kind = .validation) : Builds steps (.error error)
  | unstarted {error : Error} (placed : WellPlaced steps) (makes : Makes steps none)
      (kind : error.kind = .validation) (text : error.text = "plan has no input") :
      Builds steps (.error error)
  | accepted {plan : Plan} (placed : WellPlaced steps) (makes : Makes steps (some plan))
      (valid : plan.validate = .ok ()) : Builds steps (.ok plan)
  | refused {plan : Plan} {error : Error} (placed : WellPlaced steps)
      (makes : Makes steps (some plan)) (invalid : plan.validate = .error error) :
      Builds steps (.error error)

section Makes

variable {steps : List BuildStep} {step : BuildStep} {plan : Plan}

private theorem started_snoc (steps : List BuildStep) (step : BuildStep) :
    started (steps ++ [step]) = (started steps || step.start?.isSome) := by
  simp [started]

/-- A step starts a plan where there is none, or starts again. -/
theorem makes_start (starts : step.start? = some plan)
    (first : started steps = false ∨ step.Restarts) : Makes (steps ++ [step]) (some plan) :=
  .wrapped rfl starts first nofun

private theorem makes_nothing (unstarted : started steps = false) (startless : step.start? = none) :
    Makes (steps ++ [step]) none :=
  .nothing (by rw [started_snoc, unstarted, startless]; rfl)

/-- A step that does not start again wraps a plan or leaves it as it is. -/
theorem Makes.later (makes : Makes steps (some plan)) (goesOn : ¬step.Restarts) :
    Makes (steps ++ [step]) (some (step.wrap?.elim plan fun (_, node) => node plan)) := by
  cases makes with
  | @wrapped before later origin source whole starts first last =>
    have onward : ∀ other ∈ later ++ [step], ¬other.Restarts :=
      List.forall_mem_append.mpr ⟨last, List.forall_mem_singleton.mpr goesOn⟩
    have extended : steps ++ [step] = before ++ origin :: (later ++ [step]) := by
      rw [whole, List.append_assoc, List.cons_append]
    have makes := Makes.wrapped extended starts first onward
    rw [List.filterMap_append, List.foldl_append] at makes
    cases wraps : step.wrap? with
    | none => simpa [wraps] using makes
    | some wrap => simpa [wraps] using makes

private theorem Makes.isSome_eq {plan? : Option Plan} (makes : Makes steps plan?) :
    plan?.isSome = started steps := by
  cases makes with
  | nothing unstarted => exact unstarted.symm
  | wrapped whole starts => simp [started, whole, starts]

/-- A plan starts no later than where steps without another start follow. -/
theorem eq_nil_of_starts {before middle later : List BuildStep} {origin other : BuildStep}
    (whole : origin :: later = middle ++ other :: steps) (starts : origin.start?.isSome)
    (last : ∀ step ∈ later, ¬step.Restarts)
    (first : started (before ++ middle) = false ∨ other.Restarts) : middle = [] := by
  cases middle with
  | nil => rfl
  | cons step middle =>
    obtain ⟨rfl, rfl⟩ := List.cons.inj whole
    rcases first with unstarted | restarts
    · simp [started, starts] at unstarted
    · exact absurd restarts (last other (by simp))

/-- Steps make one plan only. -/
theorem Makes.unique {plan? other? : Option Plan} (makes : Makes steps plan?)
    (others : Makes steps other?) : plan? = other? := by
  have same := makes.isSome_eq.trans others.isSome_eq.symm
  cases makes with
  | nothing =>
    cases others with
    | nothing => rfl
    | wrapped => cases same
  | wrapped whole starts first last =>
    cases others with
    | nothing => cases same
    | wrapped otherWhole otherStarts otherFirst otherLast =>
      have both := whole.symm.trans otherWhole
      rcases List.append_eq_append_iff.mp both with ⟨middle, rfl, rest⟩ | ⟨middle, rfl, rest⟩
      · obtain rfl := eq_nil_of_starts rest (by simp [starts]) last otherFirst
        obtain ⟨rfl, rfl⟩ := List.cons.inj rest
        rw [Option.some.inj (starts.symm.trans otherStarts)]
      · obtain rfl := eq_nil_of_starts rest (by simp [otherStarts]) otherLast first
        obtain ⟨rfl, rfl⟩ := List.cons.inj rest
        rw [Option.some.inj (starts.symm.trans otherStarts)]

end Makes

section Faults

variable {steps : List BuildStep} {step : BuildStep} {position : Nat} {text : String}

/-- The steps at fault after one more step are those before it and perhaps this one, and none at all
if it starts again. -/
theorem misplacedAt_snoc :
    MisplacedAt (steps ++ [step]) position text ↔
      ¬step.Restarts ∧ (MisplacedAt steps position text ∨
        position = steps.length ∧ step.fault? (started steps) = some text) := by
  constructor
  · rintro ⟨⟨found, isStep, fault⟩, current⟩
    have bound := (List.getElem?_eq_some_iff.mp isStep).1
    rw [List.length_append, List.length_singleton] at bound
    rw [List.drop_append_of_le_length (by omega)] at current
    rw [List.take_append_of_le_length (by omega)] at fault
    obtain ⟨old, new⟩ := List.forall_mem_append.mp current
    refine ⟨new step List.mem_cons_self, ?_⟩
    by_cases isLast : position = steps.length
    · subst isLast
      rw [List.getElem?_concat_length] at isStep
      rw [List.take_length, ← Option.some.inj isStep] at fault
      exact .inr ⟨rfl, fault⟩
    · rw [List.getElem?_append_left (by omega)] at isStep
      exact .inl ⟨⟨found, isStep, fault⟩, old⟩
  · rintro ⟨goesOn, ⟨⟨found, isStep, fault⟩, current⟩ | ⟨rfl, fault⟩⟩
    · have bound := (List.getElem?_eq_some_iff.mp isStep).1
      refine ⟨⟨found, ?_, ?_⟩, ?_⟩
      · rwa [List.getElem?_append_left bound]
      · rwa [List.take_append_of_le_length (Nat.le_of_lt bound)]
      · rw [List.drop_append_of_le_length (Nat.le_of_lt bound)]
        exact List.forall_mem_append.mpr ⟨current, List.forall_mem_singleton.mpr goesOn⟩
    · refine ⟨⟨step, List.getElem?_concat_length, ?_⟩, ?_⟩
      · rwa [List.take_left]
      · rw [List.drop_left]
        exact List.forall_mem_singleton.mpr goesOn

private theorem fault?_of_wrap {name : String} {node : Plan → Plan}
    (wraps : step.wrap? = some (name, node)) (hasPlan : Bool) :
    step.fault? hasPlan = if hasPlan then none else some (name ++ "() called before input()") := by
  cases step <;> cases wraps <;> rfl

theorem MisplacedAt.bound (misplaced : MisplacedAt steps position text) :
    position < steps.length := by
  obtain ⟨_, isStep, _⟩ := misplaced.fault
  exact (List.getElem?_eq_some_iff.mp isStep).1

/-- What a builder remembers: nothing while the steps are well placed, else the first fault. -/
inductive Remembers : List BuildStep → Option Error → Prop where
  | nothing {steps : List BuildStep} (placed : WellPlaced steps) : Remembers steps none
  | fault {steps : List BuildStep} {error : Error} (first : FirstFault steps error.text)
      (kind : error.kind = .validation) : Remembers steps (some error)

variable {mistake? : Option Error}

private theorem remembers_restart (restarts : step.Restarts) : Remembers (steps ++ [step]) none :=
  .nothing fun _ _ misplaced => (misplacedAt_snoc.mp misplaced).1 restarts

theorem FirstFault.later (first : FirstFault steps text) (goesOn : ¬step.Restarts) :
    FirstFault (steps ++ [step]) text := by
  obtain ⟨position, misplaced, least⟩ := first
  refine ⟨position, misplacedAt_snoc.mpr ⟨goesOn, .inl misplaced⟩, ?_⟩
  intro earlier before other misplacedEarlier
  rcases (misplacedAt_snoc.mp misplacedEarlier).2 with isOld | ⟨isLast, -⟩
  · exact least earlier before other isOld
  · have bound := misplaced.bound
    omega

/-- A step that is not at fault changes nothing. -/
theorem Remembers.wellPlaced (remembers : Remembers steps mistake?) (goesOn : ¬step.Restarts)
    (right : step.fault? (started steps) = none) : Remembers (steps ++ [step]) mistake? := by
  cases remembers with
  | nothing placed =>
    refine .nothing fun position text misplaced => ?_
    rcases (misplacedAt_snoc.mp misplaced).2 with isOld | ⟨-, fault⟩
    · exact placed position text isOld
    · rw [right] at fault
      cases fault
  | fault first kind => exact .fault (first.later goesOn) kind

/-- A step at fault is remembered if there was none before. -/
theorem Remembers.misplaced (remembers : Remembers steps mistake?) (goesOn : ¬step.Restarts)
    {error : Error} (fault : step.fault? (started steps) = some error.text)
    (kind : error.kind = .validation) :
    Remembers (steps ++ [step]) (mistake?.or (some error)) := by
  cases remembers with
  | nothing placed =>
    refine .fault ⟨steps.length, misplacedAt_snoc.mpr ⟨goesOn, .inr ⟨rfl, fault⟩⟩, ?_⟩ kind
    intro earlier before other misplaced
    rcases (misplacedAt_snoc.mp misplaced).2 with isOld | ⟨isLast, -⟩
    · exact placed earlier other isOld
    · exact absurd isLast (Nat.ne_of_lt before)
  | fault first kind => exact .fault (first.later goesOn) kind

end Faults

end BuildStep

namespace PlanBuilder

open BuildStep

/-- A builder has the plan that some steps make, and remembers the first of them at fault. -/
structure Follows (builder : PlanBuilder) (steps : List BuildStep) : Prop where
  makes : Makes steps builder.plan?
  remembers : Remembers steps builder.mistake?

variable {builder : PlanBuilder} {steps : List BuildStep}

/-- A step that wraps is taken where there is a plan, and is at fault where there is none. -/
theorem Follows.wrap (follows : builder.Follows steps) {step : BuildStep} {wrapStep : WrapStep}
    {node : Plan → Plan} (wraps : step.wrap? = some (wrapStep.name, node))
    (startless : step.start? = none) : (builder.wrap wrapStep node).Follows (steps ++ [step]) := by
  have goesOn : ¬step.Restarts := by
    rintro ⟨plan, rfl⟩
    cases startless
  obtain ⟨plan?, mistake?⟩ := builder
  obtain ⟨makes, remembers⟩ := follows
  have started := makes.isSome_eq
  cases plan? with
  | none =>
    refine ⟨makes_nothing started.symm startless, remembers.misplaced goesOn ?_ rfl⟩
    rw [← started, fault?_of_wrap wraps]
    rfl
  | some plan =>
    have later := makes.later goesOn
    rw [wraps] at later
    refine ⟨later, remembers.wellPlaced goesOn ?_⟩
    rw [← started, fault?_of_wrap wraps]
    rfl

/-- An input is taken where there is no plan, and is at fault where there is one. -/
theorem Follows.input (follows : builder.Follows steps) (table : TableInput) :
    (builder.input table).Follows (steps ++ [.input table]) := by
  have goesOn : ¬(BuildStep.input table).Restarts := by
    rintro ⟨plan, ⟨⟩⟩
  obtain ⟨plan?, mistake?⟩ := builder
  obtain ⟨makes, remembers⟩ := follows
  have started := makes.isSome_eq
  cases plan? with
  | none =>
    refine ⟨makes_start rfl (.inl started.symm), remembers.wellPlaced goesOn ?_⟩
    rw [← started]
    rfl
  | some plan =>
    refine ⟨makes.later goesOn, remembers.misplaced goesOn ?_ rfl⟩
    rw [← started]
    rfl

theorem Follows.take (follows : builder.Follows steps) (step : BuildStep) :
    (builder.take step).Follows (steps ++ [step]) := by
  cases step with
  | restart plan =>
    have restarts : (BuildStep.restart plan).Restarts := ⟨plan, rfl⟩
    exact ⟨makes_start rfl (.inr restarts), remembers_restart restarts⟩
  | input table => exact follows.input table
  | project | filter | aggregate | output => exact follows.wrap rfl rfl

theorem Follows.run (follows : builder.Follows steps) (later : List BuildStep) :
    (builder.run later).Follows (steps ++ later) := by
  induction later generalizing builder steps with
  | nil => exact (List.append_nil steps).symm ▸ follows
  | cons step later ih =>
    rw [List.append_cons]
    exact ih (follows.take step)

private theorem follows_empty : empty.Follows [] :=
  ⟨.nothing rfl, .nothing fun _ _ misplaced => nomatch misplaced.bound⟩

theorem Follows.builds (follows : builder.Follows steps) : Builds steps builder.build := by
  obtain ⟨plan?, mistake?⟩ := builder
  obtain ⟨makes, remembers⟩ := follows
  cases remembers with
  | fault first kind => exact .misplaced first kind
  | nothing placed =>
    cases plan? with
    | none => exact .unstarted placed makes rfl rfl
    | some plan =>
      have built : build ⟨some plan, none⟩ = plan.validate >>= fun _ => .ok plan := rfl
      rw [built]
      cases valid : plan.validate with
      | error error => exact .refused placed makes valid
      | ok => exact .accepted placed makes valid

/-- After any steps a builder has the one plan that they make, and building reports the first step
at fault since the builder last started again, or else that there is no plan or what is wrong with
it, or else returns the plan. -/
theorem builds_plan_unless_misused (steps : List BuildStep) :
    (∀ plan?, (empty.run steps).plan? = plan? ↔ Makes steps plan?) ∧
      Builds steps (empty.run steps).build := by
  have follows : (empty.run steps).Follows steps := follows_empty.run steps
  refine ⟨fun plan? => ⟨?_, follows.makes.unique⟩, follows.builds⟩
  rintro rfl
  exact follows.makes

end PlanBuilder

end ColumnQuery
