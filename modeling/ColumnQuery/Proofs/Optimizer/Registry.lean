import ColumnQuery.Optimizer.Registry
import ColumnQuery.Proofs.Text.ByteOrder

/-! # The rules that an optimizer runs

Rules are registered and removed in any order and under any names. What an optimizer does with a
plan depends on the rules that are registered at that time only: after the built-in one it runs each
of them once, from the least name by its bytes to the greatest, up to the first that fails. In which
order a map happens to list the rules makes no difference, since they are sorted by name.
-/

namespace ColumnQuery

inductive OptimizerCall where
  | register (rule : Rule)
  | deregister (name : String)
  | optimize (plan : Plan)

namespace OptimizerCall

/-- The name under which a call leaves or removes a rule. -/
def name? : OptimizerCall → Option String
  | register rule => some rule.name
  | deregister name => some name
  | optimize _ => none

/-- The rule that a call leaves. -/
def rule? : OptimizerCall → Option Rule
  | register rule => some rule
  | deregister _ | optimize _ => none

/-- The rule that is registered under a name after some calls: the one that the last call for this
name leaves. -/
def registered? (calls : List OptimizerCall) (name : String) : Option Rule :=
  (calls.reverse.find? fun call => call.name? = some name).bind rule?

private theorem registered?_snoc (calls : List OptimizerCall) (call : OptimizerCall)
    (name : String) :
    registered? (calls ++ [call]) name =
      if call.name? = some name then call.rule? else registered? calls name := by
  rw [registered?, List.reverse_append, List.reverse_singleton, List.singleton_append,
    List.find?_cons]
  by_cases about : call.name? = some name
  · simp only [about, decide_true, Option.bind_some, if_true]
  · simp only [about, decide_false, if_false]
    rfl

/-- A rule is registered under its own name. -/
theorem name_of_registered? {calls : List OptimizerCall} {name : String} {rule : Rule}
    (registered : registered? calls name = some rule) : rule.name = name := by
  obtain ⟨call, found, leaves⟩ := Option.bind_eq_some_iff.mp registered
  have about : call.name? = some name := by
    simpa only [decide_eq_true_eq] using List.find?_some found
  cases call with
  | register added =>
    cases leaves
    exact Option.some.inj about
  | deregister | optimize => cases leaves

end OptimizerCall

open OptimizerCall (registered? registered?_snoc name_of_registered?)

namespace Rule

/-- One rule comes before another by the bytes of their names. -/
def Precedes (rule other : Rule) : Prop :=
  rule.name.toUTF8.toList < other.name.toUTF8.toList

/-- Some rules, sorted by the bytes of their names. -/
def sortByName (rules : List Rule) : List Rule :=
  rules.mergeSort fun rule other => decide (rule.name.toUTF8.toList ≤ other.name.toUTF8.toList)

private theorem sortByName_perm (rules : List Rule) : (sortByName rules).Perm rules :=
  List.mergeSort_perm rules _

private theorem pairwise_sortByName (rules : List Rule) :
    (sortByName rules).Pairwise fun rule other => rule.name ≤ other.name := by
  have sorted : (sortByName rules).Pairwise fun rule other =>
      decide (rule.name.toUTF8.toList ≤ other.name.toUTF8.toList) = true := by
    apply List.pairwise_mergeSort
    · intro first middle last front back
      simp only [decide_eq_true_eq, Text.toUTF8_le_iff] at front back ⊢
      exact front.trans back
    · intro rule other
      simp only [Bool.or_eq_true, decide_eq_true_eq, Text.toUTF8_le_iff]
      exact le_total rule.name other.name
  exact sorted.imp fun le => Text.toUTF8_le_iff.mp (of_decide_eq_true le)

/-- The rules under all names, each once and in any order, as a map may list them. -/
structure IsListing (registered : String → Option Rule) (listing : List Rule) : Prop where
  once : listing.Nodup
  mem : ∀ rule, rule ∈ listing ↔ registered rule.name = some rule

/-- The plan that some rules make of a plan, each of the result of the one before. -/
def changeBy (rules : List Rule) (plan : Plan) : Except Error Plan :=
  rules.foldlM (fun reached rule => rule.change reached) plan

/-- What some rules come to when they are run in order, with the rules that were run. -/
inductive Run (rules : List Rule) (plan : Plan) : List Rule → Except Error Plan → Prop where
  | complete {result : Plan} (changed : changeBy rules plan = .ok result) :
      Run rules plan rules (.ok result)
  /-- The first rule that fails is the last that is run. -/
  | stopped {before after : List Rule} {failing : Rule} {reached : Plan} {error : Error}
      (whole : rules = before ++ failing :: after) (changed : changeBy before plan = .ok reached)
      (fails : failing.change reached = .error error) :
      Run rules plan (before ++ [failing]) (.error error)

/-- A run after a rule that does not fail. -/
theorem Run.cons {rule : Rule} {rules ran : List Rule} {plan changed : Plan}
    {outcome : Except Error Plan} (changes : rule.change plan = .ok changed)
    (run : Run rules changed ran outcome) : Run (rule :: rules) plan (rule :: ran) outcome := by
  have later (others : List Rule) : changeBy (rule :: others) plan = changeBy others changed := by
    rw [changeBy, List.foldlM_cons, changes]
    rfl
  cases run with
  | complete result => exact .complete ((later rules).trans result)
  | @stopped before _ _ _ _ whole result fails =>
    exact @Run.stopped _ _ (rule :: before) _ _ _ _ (congrArg (rule :: ·) whole)
      ((later before).trans result) fails

end Rule

namespace Optimizer

open Rule (Precedes Run)

private theorem run_runRules (rules : List Rule) (plan : Plan) :
    Run rules plan (runRules rules plan).1 (runRules rules plan).2 := by
  induction rules generalizing plan with
  | nil => exact .complete rfl
  | cons rule rules ih =>
    rw [runRules]
    cases changes : rule.change plan with
    | error error => exact @Run.stopped _ _ [] _ _ _ _ rfl rfl changes
    | ok changed => exact .cons changes (ih changed)

/-- The built-in rule is always run, and before the registered ones. -/
theorem run_optimize (optimizer : Optimizer) (plan : Plan) :
    Run (.pushdown :: optimizer.rules) plan (.pushdown :: optimizer.trace plan)
      (optimizer.optimize plan) := by
  have run := run_runRules (.pushdown :: optimizer.rules) plan
  have first : (runRules (.pushdown :: optimizer.rules) plan).1 =
      .pushdown :: optimizer.trace plan := by
    rw [trace, runRules]
    cases Rule.pushdown.change plan <;> rfl
  rwa [first] at run

section Insert

variable {added : Rule} {rules : List Rule}

/-- Rules ascend by their names, each of which occurs once. -/
def Ascending (rules : List Rule) : Prop := rules.Pairwise fun rule other => rule.name < other.name

/-- A rule is put between those of lesser and those of greater names, in the place of one of its own
name. -/
theorem insert_eq (ascending : Ascending rules) :
    insert added rules = rules.filter (fun rule => rule.name < added.name) ++
      added :: rules.filter fun rule => added.name < rule.name := by
  induction rules with
  | nil => rfl
  | cons first rest ih =>
    obtain ⟨least, restAscending⟩ := List.pairwise_cons.mp ascending
    -- where the first rule is not less, the rest is greater
    have rests (notLess : added.name ≤ first.name) :
        rest.filter (fun rule => rule.name < added.name) = [] ∧
          rest.filter (fun rule => added.name < rule.name) = rest := by
      have greater (rule : Rule) (isRule : rule ∈ rest) : added.name < rule.name :=
        lt_of_le_of_lt notLess (least rule isRule)
      constructor
      · apply List.filter_eq_nil_iff.mpr
        intro rule isRule less
        exact absurd (of_decide_eq_true less) (not_lt_of_gt (greater rule isRule))
      · exact List.filter_eq_self.mpr fun rule isRule => decide_eq_true (greater rule isRule)
    rw [insert, List.filter_cons, List.filter_cons]
    simp only [decide_eq_true_eq]
    rcases lt_trichotomy added.name first.name with before | same | behind
    · obtain ⟨none, all⟩ := rests (le_of_lt before)
      rw [if_pos before, if_neg (not_lt_of_gt before), if_pos before, none, all]
      rfl
    · obtain ⟨none, all⟩ := rests (le_of_eq same)
      have neither : ¬added.name < first.name ∧ ¬first.name < added.name :=
        ⟨not_lt_of_ge (ge_of_eq same), not_lt_of_ge (le_of_eq same)⟩
      rw [if_neg neither.1, if_pos same, if_neg neither.2, if_neg neither.1, none, all]
      rfl
    · rw [if_neg (not_lt_of_gt behind), if_neg (ne_of_gt behind), if_pos behind,
        if_neg (not_lt_of_gt behind), ih restAscending]
      rfl

private theorem mem_insert (ascending : Ascending rules) {rule : Rule} :
    rule ∈ insert added rules ↔ rule = added ∨ rule ∈ rules ∧ rule.name ≠ added.name := by
  rw [insert_eq ascending]
  simp only [List.mem_append, List.mem_cons, List.mem_filter, decide_eq_true_eq, ne_iff_lt_or_gt]
  tauto

private theorem ascending_insert (ascending : Ascending rules) :
    Ascending (insert added rules) := by
  rw [insert_eq ascending, Ascending, List.pairwise_append, List.pairwise_cons]
  refine ⟨ascending.filter _, ⟨?_, ascending.filter _⟩, ?_⟩
  · intro rule isGreater
    exact of_decide_eq_true (List.mem_filter.mp isGreater).2
  · intro rule isLess other isOther
    have less : rule.name < added.name := of_decide_eq_true (List.mem_filter.mp isLess).2
    rcases List.mem_cons.mp isOther with rfl | isGreater
    · exact less
    · exact less.trans (of_decide_eq_true (List.mem_filter.mp isGreater).2)

end Insert

def take (optimizer : Optimizer) : OptimizerCall → Optimizer
  | .register rule => (optimizer.register rule).2
  | .deregister name => (optimizer.deregister name).2
  | .optimize _ => optimizer

def after (optimizer : Optimizer) (calls : List OptimizerCall) : Optimizer :=
  calls.foldl take optimizer

/-- An optimizer keeps the rules that some calls leave under all names. -/
structure Holds (optimizer : Optimizer) (calls : List OptimizerCall) : Prop where
  ascending : Ascending optimizer.rules
  mem : ∀ rule, rule ∈ optimizer.rules ↔ registered? calls rule.name = some rule

namespace Holds

variable {optimizer : Optimizer} {calls : List OptimizerCall}

theorem take (holds : optimizer.Holds calls) (call : OptimizerCall) :
    (optimizer.take call).Holds (calls ++ [call]) := by
  cases call with
  | register added =>
    refine ⟨ascending_insert holds.ascending, fun rule => ?_⟩
    rw [Optimizer.take, register, mem_insert holds.ascending, holds.mem, registered?_snoc]
    by_cases same : added.name = rule.name
    · simp [OptimizerCall.name?, OptimizerCall.rule?, same, eq_comm]
    · have differ : rule ≠ added := fun equal => same (congrArg Rule.name equal).symm
      simp [OptimizerCall.name?, same, Ne.symm same, differ]
  | deregister name =>
    refine ⟨holds.ascending.filter _, fun rule => ?_⟩
    rw [Optimizer.take, deregister, List.mem_filter, holds.mem, registered?_snoc]
    by_cases same : name = rule.name
    · simp [OptimizerCall.name?, OptimizerCall.rule?, same]
    · simp [OptimizerCall.name?, same, Ne.symm same]
  | optimize plan =>
    refine ⟨holds.ascending, fun rule => ?_⟩
    rw [Optimizer.take, holds.mem, registered?_snoc]
    rfl

theorem after (holds : optimizer.Holds calls) (more : List OptimizerCall) :
    (optimizer.after more).Holds (calls ++ more) := by
  induction more generalizing optimizer calls with
  | nil => exact (List.append_nil calls).symm ▸ holds
  | cons call more ih =>
    rw [List.append_cons]
    exact ih (holds.take call)

private theorem has_eq (holds : optimizer.Holds calls) (name : String) :
    optimizer.has name = (registered? calls name).isSome := by
  rw [Bool.eq_iff_iff, has, List.any_eq_true, Option.isSome_iff_exists]
  constructor
  · rintro ⟨rule, isRule, same⟩
    exact ⟨rule, eq_of_beq same ▸ (holds.mem rule).mp isRule⟩
  · rintro ⟨rule, registered⟩
    have same := name_of_registered? registered
    exact ⟨rule, (holds.mem rule).mpr (same.symm ▸ registered), beq_iff_eq.mpr same⟩

private theorem isListing (holds : optimizer.Holds calls) :
    Rule.IsListing (registered? calls) optimizer.rules where
  once := holds.ascending.imp fun less same => absurd (congrArg Rule.name same) (ne_of_lt less)
  mem := holds.mem

theorem precedes (holds : optimizer.Holds calls) : optimizer.rules.Pairwise Precedes :=
  holds.ascending.imp Text.toUTF8_lt_iff.mpr

/-- The order in which the rules are listed is forgotten when they are sorted. -/
theorem sortByName_eq (holds : optimizer.Holds calls) {listing : List Rule}
    (lists : Rule.IsListing (registered? calls) listing) :
    Rule.sortByName listing = optimizer.rules := by
  have same : listing.Perm optimizer.rules :=
    (List.perm_ext_iff_of_nodup lists.once holds.isListing.once).mpr fun rule =>
      (lists.mem rule).trans (holds.mem rule).symm
  have perm := (Rule.sortByName_perm listing).trans same
  refine List.Perm.eq_of_pairwise (fun rule other isRule isOther le ge => ?_)
    (Rule.pairwise_sortByName listing) (holds.ascending.imp le_of_lt) perm
  -- one name has one rule
  have registered := (holds.mem rule).mp (perm.mem_iff.mp isRule)
  rw [le_antisymm le ge, (holds.mem other).mp isOther] at registered
  exact (Option.some.inj registered).symm

end Holds

private theorem holds_empty : empty.Holds [] := ⟨.nil, fun _ => ⟨nofun, nofun⟩⟩

/-- After any calls an optimizer says of a name whether a rule is registered under it. It runs the
built-in rule and then the registered ones, each once and from the least name by its bytes to the
greatest, up to the first that fails; to this end the rules can be listed in any order and sorted.
Calls that leave the same rules lead to the same results. -/
theorem runs_registered_in_order (calls : List OptimizerCall) :
    (∀ rule, ((empty.after calls).register rule).1 = (registered? calls rule.name).isSome) ∧
    (∀ name, ((empty.after calls).deregister name).1 = (registered? calls name).isSome) ∧
    (∃ rules, Rule.IsListing (registered? calls) rules ∧ rules.Pairwise Precedes ∧
      (∀ listing, Rule.IsListing (registered? calls) listing → Rule.sortByName listing = rules) ∧
      ∀ plan, Run (.pushdown :: rules) plan (.pushdown :: (empty.after calls).trace plan)
        ((empty.after calls).optimize plan)) ∧
    ∀ others, (∀ name, registered? others name = registered? calls name) → ∀ plan,
      (empty.after others).optimize plan = (empty.after calls).optimize plan ∧
      (empty.after others).trace plan = (empty.after calls).trace plan := by
  have holds : (empty.after calls).Holds calls := holds_empty.after calls
  refine ⟨fun rule => holds.has_eq rule.name, holds.has_eq, ?_, ?_⟩
  · exact ⟨(empty.after calls).rules, holds.isListing, holds.precedes,
      fun listing => holds.sortByName_eq, run_optimize _⟩
  · intro others same plan
    have othersHold : (empty.after others).Holds others := holds_empty.after others
    have listed : Rule.IsListing (registered? calls) (empty.after others).rules :=
      funext same ▸ othersHold.isListing
    have equal : (empty.after others).rules = (empty.after calls).rules :=
      (othersHold.sortByName_eq othersHold.isListing).symm.trans (holds.sortByName_eq listed)
    rw [optimize, optimize, trace, trace, equal]
    exact ⟨rfl, rfl⟩

private def keeping (name : String) : Rule := ⟨name, .ok⟩

private def refusing (name : String) : Rule :=
  ⟨name, fun _ => .error (.notOffered s!"rule {name} failed")⟩

/-- Two histories that leave one rule under either of two names, in one of which a rule is replaced
and in the other removed. -/
theorem runs_registered_in_order_replaced :
    let calls : List OptimizerCall :=
      [.register (keeping "b"), .register (keeping "a"), .register (refusing "a")]
    let others : List OptimizerCall :=
      [.register (refusing "a"), .register (refusing "b"), .deregister "b", .register (keeping "b")]
    let listing : List Rule := [keeping "b", refusing "a"]
    Rule.IsListing (registered? calls) listing ∧
      (∀ name, registered? others name = registered? calls name) ∧
      ∀ plan, Run (.pushdown :: Rule.sortByName listing) plan
        (.pushdown :: (empty.after others).trace plan) ((empty.after others).optimize plan) := by
  intro calls others listing
  have registered (name : String) :
      let left := if name = "a" then some (refusing "a") else if name = "b" then some (keeping "b")
        else none
      registered? calls name = left ∧ registered? others name = left := by
    by_cases isA : name = "a"
    · subst isA
      exact ⟨rfl, rfl⟩
    · by_cases isB : name = "b"
      · subst isB
        exact ⟨rfl, rfl⟩
      · simp [registered?, calls, others, OptimizerCall.name?, keeping, refusing, isA, isB,
          Ne.symm isA, Ne.symm isB]
  have same (name : String) : registered? others name = registered? calls name :=
    (registered name).2.trans (registered name).1.symm
  have lists : Rule.IsListing (registered? calls) listing := by
    refine ⟨?_, fun rule => ?_⟩
    · have differ : keeping "b" ≠ refusing "a" :=
        fun equal => absurd (congrArg Rule.name equal) (by decide)
      simp [listing, differ]
    · rw [(registered rule.name).1]
      constructor
      · intro isRule
        rcases List.mem_cons.mp isRule with rfl | isLast
        · rfl
        · rw [List.mem_singleton.mp isLast]
          rfl
      · intro found
        split at found
        · exact .tail _ (Option.some.inj found ▸ .head _)
        · split at found
          · exact Option.some.inj found ▸ .head _
          · cases found
  obtain ⟨-, -, ⟨rules, -, -, sorted, run⟩, agree⟩ := runs_registered_in_order calls
  refine ⟨lists, same, fun plan => ?_⟩
  rw [sorted listing lists, (agree others same plan).1, (agree others same plan).2]
  exact run plan

end Optimizer

end ColumnQuery
