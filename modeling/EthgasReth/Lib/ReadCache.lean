import Mathlib

/-!
# Reading through a cache

An inquiry asks for values one at a time, each query chosen on the answers so far, and
ends in a result.  It runs against a source that answers a query the same whenever it is
asked, directly or through a cache: a cached value is returned, a missing one is loaded
and stored, and a load that fails leaves no trace.  A cache that holds nothing but the
source's own values changes no result and stays such a cache.
-/

set_option autoImplicit false

namespace EthgasReth.Lib

inductive Inquiry (Query : Type) (Answer : Query → Type) (Failure Result : Type) : Type where
  | done (result : Result)
  | ask (query : Query)
      (next : Except Failure (Answer query) → Inquiry Query Answer Failure Result)

abbrev Source (Query : Type) (Answer : Query → Type) (Failure : Type) : Type :=
  ∀ query : Query, Except Failure (Answer query)

abbrev ReadCache (Query : Type) (Answer : Query → Type) : Type :=
  ∀ query : Query, Option (Answer query)

variable {Query : Type} {Answer : Query → Type} {Failure : Type}

namespace Inquiry

def bind {First Second : Type} (next : First → Inquiry Query Answer Failure Second) :
    Inquiry Query Answer Failure First → Inquiry Query Answer Failure Second
  | .done result => next result
  | .ask query rest => .ask query fun answer => (rest answer).bind next

instance : Monad (Inquiry Query Answer Failure) where
  pure := .done
  bind := fun first next => first.bind next

variable {Result : Type}

def run (source : Source Query Answer Failure) : Inquiry Query Answer Failure Result → Result
  | .done result => result
  | .ask query next => (next (source query)).run source

theorem run_bind {First : Type} (source : Source Query Answer Failure)
    (first : Inquiry Query Answer Failure First)
    (next : First → Inquiry Query Answer Failure Result) :
    (first >>= next).run source = (next (first.run source)).run source := by
  induction first with
  | done result => rfl
  | ask query rest ih => exact ih (source query)

end Inquiry

namespace ReadCache

def empty : ReadCache Query Answer := fun _ => none

def extend (cache other : ReadCache Query Answer) : ReadCache Query Answer :=
  fun query => (other query).or (cache query)

/-- Every value that is held is the source's own. -/
def Faithful (source : Source Query Answer Failure) (cache : ReadCache Query Answer) : Prop :=
  ∀ query value, cache query = some value → source query = .ok value

variable {source : Source Query Answer Failure} {cache other : ReadCache Query Answer}

theorem faithful_empty : Faithful source (empty : ReadCache Query Answer) := by
  intro query value impossible
  cases impossible

theorem Faithful.extend (faithful : Faithful source cache) (otherFaithful : Faithful source other) :
    Faithful source (cache.extend other) := by
  intro query value held
  rcases Option.or_eq_some_iff.mp held with isOther | ⟨-, isCached⟩
  · exact otherFaithful query value isOther
  · exact faithful query value isCached

variable [DecidableEq Query]

/-- A query's answer, and the cache after it. -/
def read (source : Source Query Answer Failure) (query : Query) (cache : ReadCache Query Answer) :
    Except Failure (Answer query) × ReadCache Query Answer :=
  match cache query with
  | some value => (.ok value, cache)
  | none =>
      match source query with
      | .ok value => (.ok value, Function.update cache query (some value))
      | .error failure => (.error failure, cache)

theorem Faithful.read_answer (faithful : Faithful source cache) (query : Query) :
    (cache.read source query).1 = source query := by
  unfold ReadCache.read
  cases held : cache query with
  | some value => exact (faithful query value held).symm
  | none => cases source query <;> rfl

theorem Faithful.read_cache (faithful : Faithful source cache) (query : Query) :
    Faithful source (cache.read source query).2 := by
  unfold ReadCache.read
  cases cache query with
  | some value => exact faithful
  | none =>
      cases loaded : source query with
      | error failure => exact faithful
      | ok value =>
          intro asked found held
          dsimp only at held
          by_cases same : asked = query
          · subst same
            rw [Function.update_self] at held
            cases held
            exact loaded
          · rw [Function.update_of_ne same] at held
            exact faithful asked found held

end ReadCache

namespace Inquiry

variable {Result : Type} [DecidableEq Query] {source : Source Query Answer Failure}
  {cache : ReadCache Query Answer}

/-- The result when every query goes through the cache, and the cache after it. -/
def runCached (source : Source Query Answer Failure) :
    Inquiry Query Answer Failure Result → ReadCache Query Answer →
      Result × ReadCache Query Answer
  | .done result, cache => (result, cache)
  | .ask query next, cache =>
      let (answer, cache) := cache.read source query
      (next answer).runCached source cache

/-- Through a faithful cache an inquiry comes to the source's result. -/
theorem runCached_result (inquiry : Inquiry Query Answer Failure Result)
    (faithful : cache.Faithful source) :
    (inquiry.runCached source cache).1 = inquiry.run source := by
  induction inquiry generalizing cache with
  | done result => rfl
  | ask query next ih =>
      simp only [runCached, run]
      rw [faithful.read_answer query]
      exact ih _ (faithful.read_cache query)

theorem runCached_faithful (inquiry : Inquiry Query Answer Failure Result)
    (faithful : cache.Faithful source) :
    (inquiry.runCached source cache).2.Faithful source := by
  induction inquiry generalizing cache with
  | done result => exact faithful
  | ask query next ih => exact ih _ (faithful.read_cache query)

end Inquiry

end EthgasReth.Lib
