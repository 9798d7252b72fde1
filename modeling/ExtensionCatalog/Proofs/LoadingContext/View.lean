/-
**What an ancestor sees is what a context sees of it.**

Classes that an ancestor loads are looked up through levels of the ancestor, whichever context
below asks. So everything that starts from such a class comes to the same from both.

* `loadFrom_eq_of_isLoaded`: lookups through the level that defines a class of an ancestor;
* `supertypes_eq_of_isLoaded`: its supertypes;
* `outcome_isAssignable_eq`: **what it is assignable to**.
-/

import ExtensionCatalog.Proofs.LoadingContext.Search

namespace ExtensionCatalog.LoadingContext

variable {tree : FileTree} {context ancestor : LoadingContext} {type : LoadedClass}

theorem ancestry_suffix_of_mem (above : ancestor ∈ context.ancestry) :
    ancestor.ancestry <:+ context.ancestry := by
  induction context with
  | root level =>
    cases List.mem_singleton.mp above
    exact List.suffix_refl _
  | child parent level hypothesis =>
    rcases List.mem_cons.mp above with here | further
    · cases here
      exact List.suffix_refl _
    · exact (hypothesis further).trans (List.suffix_cons _ _)

theorem nodup_of_mem_ancestry (distinct : (context.levels.map (·.id)).Nodup)
    (above : ancestor ∈ context.ancestry) : (ancestor.levels.map (·.id)).Nodup :=
  distinct.sublist (((ancestry_suffix_of_mem above).sublist.map _).map _)

section Distinct

variable (distinct : (context.levels.map (·.id)).Nodup) (above : ancestor ∈ context.ancestry)

include distinct above

theorem at?_eq_of_isLoaded (loaded : ancestor.IsLoaded tree type) :
    context.at? type.definedBy = ancestor.at? type.definedBy := by
  obtain ⟨defining, inside, same⟩ := loaded.exists_level
  have further : defining ∈ context.ancestry := (ancestry_suffix_of_mem above).subset inside
  rw [← same, at?_of_mem_ancestry distinct further,
    at?_of_mem_ancestry (nodup_of_mem_ancestry distinct above) inside]

/-- Lookups through the level that defines a class of an ancestor are those of the ancestor. -/
theorem loadFrom_eq_of_isLoaded (loaded : ancestor.IsLoaded tree type) (name : String) :
    context.loadFrom tree type.definedBy name = ancestor.loadFrom tree type.definedBy name := by
  obtain ⟨defining, inside, same⟩ := loaded.exists_level
  have further : defining ∈ context.ancestry := (ancestry_suffix_of_mem above).subset inside
  rw [← same, loadFrom_of_mem_ancestry distinct further,
    loadFrom_of_mem_ancestry (nodup_of_mem_ancestry distinct above) inside]

theorem loadIfPresent_eq_of_isLoaded (loaded : ancestor.IsLoaded tree type) (name : String) :
    context.loadIfPresent tree type.definedBy name =
      ancestor.loadIfPresent tree type.definedBy name := by
  unfold loadIfPresent
  rw [loadFrom_eq_of_isLoaded distinct above loaded]

theorem supertypes_eq_of_isLoaded (loaded : ancestor.IsLoaded tree type) :
    context.supertypes tree type = ancestor.supertypes tree type := by
  have each : context.loadIfPresent tree type.definedBy =
      ancestor.loadIfPresent tree type.definedBy := by
    funext name
    exact loadIfPresent_eq_of_isLoaded distinct above loaded name
  unfold supertypes
  rw [each]

/-- A search among classes of an ancestor never leaves the ancestor. -/
theorem searchWithin_eq_of_isLoaded (target : LevelId × String) (rounds : Nat)
    (waiting : List LoadedClass) (seen : List (LevelId × String))
    (loaded : ∀ type ∈ waiting, ancestor.IsLoaded tree type) :
    searchWithin context tree target rounds waiting seen =
      searchWithin ancestor tree target rounds waiting seen := by
  induction rounds, waiting, seen using searchWithin.induct ancestor tree target with
  | case1 rounds seen => rw [searchWithin, searchWithin]
  | case2 seen current waiting => rw [searchWithin, searchWithin]
  | case3 rounds current waiting seen met => rw [searchWithin, searchWithin, if_pos met, if_pos met]
  | case4 rounds current waiting seen other again hypothesis =>
    rw [searchWithin, searchWithin, if_neg other, if_neg other, if_pos again, if_pos again]
    exact hypothesis fun type member => loaded type (List.mem_cons_of_mem _ member)
  | case5 rounds current waiting seen other unmet error failed =>
    have same := supertypes_eq_of_isLoaded distinct above (loaded current List.mem_cons_self)
    rw [searchWithin, searchWithin, if_neg other, if_neg other, if_neg unmet, if_neg unmet, same,
      failed]
  | case6 rounds current waiting seen other unmet found met hypothesis =>
    have same := supertypes_eq_of_isLoaded distinct above (loaded current List.mem_cons_self)
    rw [searchWithin, searchWithin, if_neg other, if_neg other, if_neg unmet, if_neg unmet, same,
      met]
    refine hypothesis fun type member => ?_
    rcases List.mem_append.mp member with before | after
    · exact loaded type (List.mem_cons_of_mem _ before)
    · exact isLoaded_of_supertypes met type after

/-- **A class of an ancestor is assignable to the same classes from every context below.** -/
theorem outcome_isAssignable_eq {candidate : LoadedClass}
    (loaded : ancestor.IsLoaded tree candidate) (target : LoadedClass) :
    (context.isAssignable tree target candidate).outcome =
      (ancestor.isAssignable tree target candidate).outcome := by
  obtain ⟨rounds, ended⟩ := exists_searchWithin_eq_isAssignable ancestor tree target candidate
  apply outcome_isAssignable_of_searchWithin
  rw [searchWithin_eq_of_isLoaded distinct above, ended rounds (Nat.le_refl _)]
  intro type member
  rw [List.mem_singleton.mp member]
  exact loaded

end Distinct

end ExtensionCatalog.LoadingContext
