/-
**The search for a supertype.**

A search looks at every type once. It ends because a chain can define finitely many types, and what
it answers is about the classes that can be reached, since a type stands for one class.

* `searchWithin`: a search that keeps the types it has looked at, cut off after a number of classes;
* `exists_searchWithin_eq`: **a search ends**, and its result is that of `search`;
* `Explored`: what a search knows of the classes it has met; `Explored.skip` and `Explored.explore`
  are its rounds;
* `answers_isAssignable`: **what a search comes to is about the reachable classes**;
* `isAssignable_reachable`: both.
-/

import ExtensionCatalog.Proofs.LoadingContext.Supertypes

namespace ExtensionCatalog.LoadingContext

variable {tree : FileTree} {context : LoadingContext} {candidate current type : LoadedClass}
  {target : LevelId × String}

/-! ### The end of a search -/

/-- A search that keeps the types it has looked at, cut off after a number of classes; no result if
it has not ended by then. -/
def searchWithin (context : LoadingContext) (tree : FileTree) (target : LevelId × String) :
    Nat → List LoadedClass → List (LevelId × String) → Option (Except Error Bool)
  | _, [], _ => some (.ok false)
  | 0, _ :: _, _ => none
  | rounds + 1, current :: waiting, seen =>
    if current.key = target then some (.ok true)
    else if seen.contains current.key then
      searchWithin context tree target rounds waiting seen
    else
      match (context.supertypes tree current).outcome with
      | .error error => some (.error error)
      | .ok found =>
        searchWithin context tree target rounds (waiting ++ found) (current.key :: seen)

/-- The types that a search has not looked at are those of a list that it has not seen. -/
def LeavesUnseen (all seen unseen : List (LevelId × String)) : Prop :=
  ∀ key, key ∈ unseen ↔ key ∈ all ∧ key ∉ seen

theorem leavesUnseen_nil (all : List (LevelId × String)) : LeavesUnseen all [] all :=
  fun _ => (and_iff_left List.not_mem_nil).symm

theorem LeavesUnseen.see {all seen unseen : List (LevelId × String)}
    (leaves : LeavesUnseen all seen unseen) (key : LevelId × String) :
    LeavesUnseen all (key :: seen) (without key unseen) := by
  intro other
  unfold without
  rw [List.mem_filter, leaves other, bne_iff_ne, List.mem_cons, not_or]
  constructor
  · intro kept
    exact ⟨kept.1.1, kept.2, kept.1.2⟩
  · intro kept
    exact ⟨⟨kept.1, kept.2.2⟩, kept.2.1⟩

/-- **A search ends.** After some rounds, a search that keeps the types it has seen comes to what
the search among the definable types comes to. -/
theorem exists_searchWithin_eq {all : List (LevelId × String)}
    (definable : ∀ key ∈ context.definableTypes tree, key ∈ all)
    (waiting : List LoadedClass) (unseen seen : List (LevelId × String))
    (leaves : LeavesUnseen all seen unseen) (inside : ∀ type ∈ waiting, type.key ∈ all) :
    ∃ rounds, searchWithin context tree target rounds waiting seen =
      some (context.search tree target waiting unseen).outcome := by
  induction waiting, unseen using search.induct target generalizing seen with
  | case1 unseen =>
    refine ⟨0, ?_⟩
    rw [searchWithin, search]
    rfl
  | case2 current waiting unseen met =>
    refine ⟨1, ?_⟩
    rw [searchWithin, search, if_pos met, if_pos met]
    rfl
  | case3 current waiting unseen other fresh hypothesis =>
    have unmet : ¬ seen.contains current.key :=
      List.contains_iff_mem.not.mpr ((leaves current.key).mp fresh).2
    cases met : (context.supertypes tree current).outcome with
    | error error =>
      refine ⟨1, ?_⟩
      rw [searchWithin, search, if_neg other, if_neg other, if_neg unmet, if_pos fresh, met,
        Logged.outcome_bind, met]
      rfl
    | ok found =>
      have insideFound : ∀ type ∈ waiting ++ found, type.key ∈ all := by
        intro type member
        rcases List.mem_append.mp member with before | after
        · exact inside type (List.mem_cons_of_mem _ before)
        · exact definable _ (key_mem_definableTypes (isLoaded_of_supertypes met type after))
      obtain ⟨rounds, equal⟩ :=
        hypothesis found (current.key :: seen) (leaves.see current.key) insideFound
      refine ⟨rounds + 1, ?_⟩
      rw [searchWithin, search, if_neg other, if_neg other, if_neg unmet, if_pos fresh, met,
        Logged.outcome_bind, met]
      exact equal
  | case4 current waiting unseen other known hypothesis =>
    have seenBefore : seen.contains current.key := by
      rw [List.contains_iff_mem]
      by_contra unmet
      exact known ((leaves current.key).mpr ⟨inside current List.mem_cons_self, unmet⟩)
    obtain ⟨rounds, equal⟩ := hypothesis seen leaves fun type member =>
      inside type (List.mem_cons_of_mem _ member)
    refine ⟨rounds + 1, ?_⟩
    rw [searchWithin, search, if_neg other, if_neg other, if_pos seenBefore, if_neg known]
    exact equal

/-- One more round changes nothing once a search has ended. -/
theorem searchWithin_succ {rounds : Nat} {waiting : List LoadedClass}
    {seen : List (LevelId × String)} {outcome : Except Error Bool}
    (ended : searchWithin context tree target rounds waiting seen = some outcome) :
    searchWithin context tree target (rounds + 1) waiting seen = some outcome := by
  induction rounds, waiting, seen using searchWithin.induct context tree target with
  | case1 rounds seen =>
    rw [searchWithin] at ended ⊢
    exact ended
  | case2 seen current waiting =>
    rw [searchWithin] at ended
    cases ended
  | case3 rounds current waiting seen met =>
    rw [searchWithin, if_pos met] at ended ⊢
    exact ended
  | case4 rounds current waiting seen other again hypothesis =>
    rw [searchWithin, if_neg other, if_pos again] at ended ⊢
    exact hypothesis ended
  | case5 rounds current waiting seen other unmet error failed =>
    rw [searchWithin, if_neg other, if_neg unmet, failed] at ended ⊢
    exact ended
  | case6 rounds current waiting seen other unmet found met hypothesis =>
    rw [searchWithin, if_neg other, if_neg unmet, met] at ended ⊢
    exact hypothesis ended

theorem searchWithin_mono {rounds more : Nat} (less : rounds ≤ more) {waiting : List LoadedClass}
    {seen : List (LevelId × String)} {outcome : Except Error Bool}
    (ended : searchWithin context tree target rounds waiting seen = some outcome) :
    searchWithin context tree target more waiting seen = some outcome := by
  induction less with
  | refl => exact ended
  | step _ hypothesis => exact searchWithin_succ hypothesis

/-- A check of assignability ends. -/
theorem exists_searchWithin_eq_isAssignable (context : LoadingContext) (tree : FileTree)
    (target candidate : LoadedClass) : ∃ enough, ∀ rounds, enough ≤ rounds →
      searchWithin context tree target.key rounds [candidate] [] =
        some (context.isAssignable tree target candidate).outcome := by
  have inside : ∀ type ∈ [candidate], type.key ∈ candidate.key :: context.definableTypes tree := by
    intro type member
    rw [List.mem_singleton.mp member]
    exact List.mem_cons_self
  obtain ⟨enough, ended⟩ := exists_searchWithin_eq (fun key => List.mem_cons_of_mem _)
    [candidate] _ [] (leavesUnseen_nil _) inside
  exact ⟨enough, fun rounds many => searchWithin_mono many ended⟩

/-- What a search that is cut off comes to, if it ends before, is what the check comes to. -/
theorem outcome_isAssignable_of_searchWithin {target : LoadedClass} {rounds : Nat}
    {outcome : Except Error Bool}
    (ended : searchWithin context tree target.key rounds [candidate] [] = some outcome) :
    (context.isAssignable tree target candidate).outcome = outcome := by
  obtain ⟨enough, equal⟩ := exists_searchWithin_eq_isAssignable context tree target candidate
  have later := equal (max enough rounds) (Nat.le_max_left _ _)
  rw [searchWithin_mono (Nat.le_max_right _ _) ended] at later
  cases later
  rfl

/-! ### What a search knows -/

/-- What a search has learnt while `waiting` is still to be looked at: what waits is reachable, the
candidate waits or has been seen, the type looked for has not been seen, and the supertypes of a
class whose type has been seen wait or have been seen themselves. -/
structure Explored (context : LoadingContext) (tree : FileTree) (candidate : LoadedClass)
    (target : LevelId × String) (waiting : List LoadedClass) (seen : List (LevelId × String)) :
    Prop where
  reachable : ∀ type ∈ waiting, context.Reachable tree candidate type
  started : candidate ∈ waiting ∨ candidate.key ∈ seen
  unmet : target ∉ seen
  closed : ∀ {type}, context.Reachable tree candidate type → type.key ∈ seen →
    ∀ {next}, context.SupertypeYields tree type (.ok next) → next ∈ waiting ∨ next.key ∈ seen

section Rounds

variable {waiting : List LoadedClass} {seen : List (LevelId × String)}

theorem explored_start : context.Explored tree candidate target [candidate] [] where
  reachable type member := by
    rw [List.mem_singleton.mp member]
    exact .candidate
  started := .inl List.mem_cons_self
  unmet := List.not_mem_nil
  closed _ member := absurd member List.not_mem_nil

theorem waits_or_seen_of_skip (again : current.key ∈ seen) {type : LoadedClass}
    (before : type ∈ current :: waiting ∨ type.key ∈ seen) : type ∈ waiting ∨ type.key ∈ seen := by
  rcases before with waits | met
  · rcases List.mem_cons.mp waits with rfl | later
    · exact .inr again
    · exact .inl later
  · exact .inr met

/-- A class whose type has been seen is passed over. -/
theorem Explored.skip (explored : context.Explored tree candidate target (current :: waiting) seen)
    (again : current.key ∈ seen) : context.Explored tree candidate target waiting seen where
  reachable type member := explored.reachable type (List.mem_cons_of_mem _ member)
  started := waits_or_seen_of_skip again explored.started
  unmet := explored.unmet
  closed reached met _ yields := waits_or_seen_of_skip again (explored.closed reached met yields)

theorem waits_or_seen_of_explore (found : List LoadedClass) {type : LoadedClass}
    (before : type ∈ current :: waiting ∨ type.key ∈ seen) :
    type ∈ waiting ++ found ∨ type.key ∈ current.key :: seen := by
  rcases before with waits | met
  · rcases List.mem_cons.mp waits with rfl | later
    · exact .inr List.mem_cons_self
    · exact .inl (List.mem_append_left _ later)
  · exact .inr (List.mem_cons_of_mem _ met)

variable (distinct : (context.levels.map (·.id)).Nodup)
  (loaded : context.IsLoaded tree candidate)

include distinct loaded

/-- The supertypes of a class whose type has not been seen are put behind the others. -/
theorem Explored.explore
    (explored : context.Explored tree candidate target (current :: waiting) seen)
    (other : current.key ≠ target) {found : List LoadedClass}
    (met : (context.supertypes tree current).outcome = .ok found) :
    context.Explored tree candidate target (waiting ++ found) (current.key :: seen) := by
  have reached := explored.reachable current List.mem_cons_self
  have supertypes {next : LoadedClass} :
      next ∈ found ↔ context.SupertypeYields tree current (.ok next) :=
    mem_supertypes_iff distinct (reached.isLoaded loaded) met
  refine ⟨fun type member => ?_, waits_or_seen_of_explore found explored.started, ?_, ?_⟩
  · rcases List.mem_append.mp member with before | after
    · exact explored.reachable type (List.mem_cons_of_mem _ before)
    · exact .supertype reached (supertypes.mp after)
  · intro member
    rcases List.mem_cons.mp member with same | before
    · exact other same.symm
    · exact explored.unmet before
  · intro type reached' member next yields
    rcases List.mem_cons.mp member with same | before
    · -- A reachable class of the type just looked at is the class just looked at.
      have equal : type = current := (reached'.isLoaded loaded).eq_of_name_eq
        (reached.isLoaded loaded) (congrArg Prod.snd same)
      rw [equal] at yields
      exact .inl (List.mem_append_right _ (supertypes.mpr yields))
    · exact waits_or_seen_of_explore found (explored.closed reached' before yields)

omit distinct loaded in
/-- When nothing waits any more, every reachable class has been seen. -/
theorem Explored.key_mem_seen (explored : context.Explored tree candidate target [] seen)
    (reached : context.Reachable tree candidate type) : type.key ∈ seen := by
  induction reached with
  | candidate => exact explored.started.resolve_left List.not_mem_nil
  | supertype reached yields hypothesis =>
    exact (explored.closed reached hypothesis yields).resolve_left List.not_mem_nil

end Rounds

/-! ### What a search comes to -/

/-- What an outcome of a search says: a type was met that can be reached; no class of the type can
be reached; a supertype of a reachable class fails with an error other than a missing class. -/
def Answers (context : LoadingContext) (tree : FileTree) (candidate : LoadedClass)
    (target : LevelId × String) : Except Error Bool → Prop
  | .ok true => ∃ type, context.Reachable tree candidate type ∧ type.key = target
  | .ok false => ¬ ∃ type, context.Reachable tree candidate type ∧ type.key = target
  | .error error =>
    (∃ type, context.Reachable tree candidate type ∧
      context.SupertypeYields tree type (.error error)) ∧ ∀ missing, error ≠ .classNotFound missing

section Answers

variable (distinct : (context.levels.map (·.id)).Nodup)
  (loaded : context.IsLoaded tree candidate)

include distinct loaded

theorem Explored.answers {rounds : Nat} {waiting : List LoadedClass}
    {seen : List (LevelId × String)} {outcome : Except Error Bool}
    (explored : context.Explored tree candidate target waiting seen)
    (ended : searchWithin context tree target rounds waiting seen = some outcome) :
    context.Answers tree candidate target outcome := by
  induction rounds, waiting, seen using searchWithin.induct context tree target with
  | case1 rounds seen =>
    rw [searchWithin] at ended
    cases ended
    intro met
    obtain ⟨type, reached, same⟩ := met
    exact explored.unmet (same ▸ explored.key_mem_seen reached)
  | case2 seen current waiting =>
    rw [searchWithin] at ended
    cases ended
  | case3 rounds current waiting seen met =>
    rw [searchWithin, if_pos met] at ended
    cases ended
    exact ⟨current, explored.reachable current List.mem_cons_self, met⟩
  | case4 rounds current waiting seen other again hypothesis =>
    rw [searchWithin, if_neg other, if_pos again] at ended
    exact hypothesis (explored.skip (List.contains_iff_mem.mp again)) ended
  | case5 rounds current waiting seen other unmet error failed =>
    rw [searchWithin, if_neg other, if_neg unmet, failed] at ended
    cases ended
    have reached := explored.reachable current List.mem_cons_self
    obtain ⟨yields, kept⟩ :=
      supertypeYields_of_supertypes_eq_error distinct (reached.isLoaded loaded) failed
    exact ⟨⟨current, reached, yields⟩, kept⟩
  | case6 rounds current waiting seen other unmet found met hypothesis =>
    rw [searchWithin, if_neg other, if_neg unmet, met] at ended
    exact hypothesis (explored.explore distinct loaded other met) ended

/-- **What a check of assignability comes to is about the reachable classes.** -/
theorem answers_isAssignable (target : LoadedClass) :
    context.Answers tree candidate target.key (context.isAssignable tree target candidate).outcome
    := by
  obtain ⟨enough, equal⟩ := exists_searchWithin_eq_isAssignable context tree target candidate
  exact explored_start.answers distinct loaded (equal enough (Nat.le_refl _))

/-- A check answers that a class is assignable exactly if the type looked for can be reached. -/
theorem isAssignable_eq_ok_iff {target : LoadedClass} {answer : Bool}
    (answered : (context.isAssignable tree target candidate).outcome = .ok answer) :
    answer = true ↔ ∃ type, context.Reachable tree candidate type ∧ type.key = target.key := by
  have answers := answers_isAssignable distinct loaded target
  rw [answered] at answers
  cases answer with
  | true => exact iff_of_true rfl answers
  | false => exact iff_of_false Bool.false_ne_true answers

end Answers

/-- **An assignability check decides what can be reached.** In a chain of levels with distinct
identities, a check for a class of the chain ends, whatever the supertypes are. Its answer tells
whether a class with the name and the defining level of the target can be reached; an error of it is
the error of looking up a supertype of a class that can be reached, and no missing class; and it
answers if there is no such error. -/
theorem isAssignable_reachable (tree : FileTree) (context : LoadingContext)
    (distinct : (context.levels.map (·.id)).Nodup) {level : LoadingContext}
    (above : level ∈ context.ancestry) {name : String} {candidate : LoadedClass}
    (found : (level.load tree name).outcome = .ok candidate) (target : LoadedClass) :
    (∃ enough, ∀ rounds, enough ≤ rounds →
      searchWithin context tree target.key rounds [candidate] [] =
        some (context.isAssignable tree target candidate).outcome) ∧
    (∀ answer, (context.isAssignable tree target candidate).outcome = .ok answer →
      (answer = true ↔ ∃ type, context.Reachable tree candidate type ∧
        type.name = target.name ∧ type.definedBy = target.definedBy)) ∧
    (∀ error, (context.isAssignable tree target candidate).outcome = .error error →
      (∃ type, context.Reachable tree candidate type ∧
        context.SupertypeYields tree type (.error error)) ∧
      ∀ missing, error ≠ .classNotFound missing) ∧
    ((∀ type, context.Reachable tree candidate type → ∀ error,
        context.SupertypeYields tree type (.error error) →
        ∃ missing, error = .classNotFound missing) →
      ∃ answer, (context.isAssignable tree target candidate).outcome = .ok answer) := by
  have loaded : context.IsLoaded tree candidate := isLoaded_of_load above found
  have answers := answers_isAssignable distinct loaded target
  refine ⟨exists_searchWithin_eq_isAssignable context tree target candidate, ?_, ?_, ?_⟩
  · intro answer answered
    rw [isAssignable_eq_ok_iff distinct loaded answered]
    refine exists_congr fun type => and_congr_right fun _ => ?_
    unfold LoadedClass.key
    rw [Prod.mk.injEq, and_comm]
  · intro error failed
    rw [failed] at answers
    exact answers
  · intro passable
    cases outcome : (context.isAssignable tree target candidate).outcome with
    | ok answer => exact ⟨answer, rfl⟩
    | error error =>
      rw [outcome] at answers
      obtain ⟨⟨type, reached, yields⟩, kept⟩ := answers
      obtain ⟨missing, same⟩ := passable type reached error yields
      exact absurd same (kept missing)

/-- The class file of a class whose name and whose interfaces are single letters. -/
def lettersClass (name : UInt8) (interfaces : List UInt8) : Bytes :=
  let places := (name :: interfaces).zipIdx.map fun (letter, place) => (letter, place.toUInt8)
  [0xCA, 0xFE, 0xBA, 0xBE, 0, 0, 0, 52, 0, 2 * places.length.toUInt8 + 1] ++
    places.flatMap (fun (letter, place) => [1, 0, 1, letter, 7, 0, 2 * place + 1]) ++
    [0, 1, 0, 2, 0, 0, 0, interfaces.length.toUInt8] ++
    places.tail.flatMap (fun (_, place) => [0, 2 * place + 2]) ++ List.replicate 6 0

/-- Two interfaces `A` and `B` that extend each other, and below them a class `C` that implements
`A` and an interface that is nowhere; the directory below has an interface `B` of its own. -/
def cyclicTree : FileTree where
  entries := .ofList [(["outer"], .directory), (["outer", "A.class"], .file (lettersClass 65 [66])),
    (["outer", "B.class"], .file (lettersClass 66 [65])), (["inner"], .directory),
    (["inner", "B.class"], .file (lettersClass 66 [])),
    (["inner", "C.class"], .file (lettersClass 67 [77, 65]))]
  workingDirectory := []

def cyclicContext : LoadingContext :=
  .child (.root ⟨⟨0, 0⟩, none, ∅, [.directory ⟨"/outer"⟩]⟩)
    ⟨⟨0, 1⟩, none, ∅, [.directory ⟨"/inner"⟩]⟩

/-- Along a cycle of supertypes, `C` is assignable to `B` and `B` is not assignable to `C`. -/
theorem isAssignable_reachable_cycle :
    (cyclicContext.levels.map (·.id)).Nodup ∧ ∃ lower upper,
      (cyclicContext.load cyclicTree "C").outcome = .ok lower ∧
      (cyclicContext.load cyclicTree "B").outcome = .ok upper ∧
      (∃ type, cyclicContext.Reachable cyclicTree lower type ∧ type.name = upper.name ∧
        type.definedBy = upper.definedBy) ∧
      ¬ ∃ type, cyclicContext.Reachable cyclicTree upper type ∧ type.name = lower.name ∧
        type.definedBy = lower.definedBy := by
  have distinct : (cyclicContext.levels.map (·.id)).Nodup := by decide
  have computed : (do
      let lower ← (cyclicContext.load cyclicTree "C").outcome.toOption
      let upper ← (cyclicContext.load cyclicTree "B").outcome.toOption
      let up ← searchWithin cyclicContext cyclicTree upper.key 9 [lower] []
      let down ← searchWithin cyclicContext cyclicTree lower.key 9 [upper] []
      return (← up.toOption, ← down.toOption)) = some (true, false) := by
    decide +kernel
  obtain ⟨lower, foundLower, rest⟩ := Option.bind_eq_some_iff.mp computed
  obtain ⟨upper, foundUpper, rest⟩ := Option.bind_eq_some_iff.mp rest
  obtain ⟨up, endedUp, rest⟩ := Option.bind_eq_some_iff.mp rest
  obtain ⟨down, endedDown, rest⟩ := Option.bind_eq_some_iff.mp rest
  obtain ⟨answer, answeredUp, rest⟩ := Option.bind_eq_some_iff.mp rest
  obtain ⟨answer, answeredDown, ⟨⟩⟩ := Option.bind_eq_some_iff.mp rest
  have foundLower := Outcome.eq_ok_of_toOption foundLower
  have foundUpper := Outcome.eq_ok_of_toOption foundUpper
  have yes := outcome_isAssignable_of_searchWithin endedUp
  have no := outcome_isAssignable_of_searchWithin endedDown
  rw [Outcome.eq_ok_of_toOption answeredUp] at yes
  rw [Outcome.eq_ok_of_toOption answeredDown] at no
  obtain ⟨-, decidesUp, -⟩ := isAssignable_reachable cyclicTree cyclicContext distinct
    (mem_ancestry_self _) foundLower upper
  obtain ⟨-, decidesDown, -⟩ := isAssignable_reachable cyclicTree cyclicContext distinct
    (mem_ancestry_self _) foundUpper lower
  exact ⟨distinct, lower, upper, foundLower, foundUpper, (decidesUp true yes).mp rfl,
    fun reached => Bool.false_ne_true ((decidesDown false no).mpr reached)⟩

end ExtensionCatalog.LoadingContext
