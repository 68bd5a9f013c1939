import MeterGate.Proofs.Course
import Mathlib.Logic.Function.Basic

set_option autoImplicit false

/-! # Chains in several hands

A chain may have several owners, and an owner may push filters onto its own list. `Holdings` has the
list of every owner over one memory, which the filters of all lists share. An owner's deed is to put
a request to its chain or to push a filter onto it, and `Holdings.clone` gives one owner the list of
another.

An exchange is what a request gives and reports (`Filter.exchange`). Deeds leave every owner with
the list it had and what it pushed itself (`Holdings.lists_after`), so a request is answered by
these filters (`Holdings.exchanges_concat`); and owners that hold the same list are one owner to
whoever looks at the exchanges (`Holdings.exchanges_of_held`). -/

namespace MeterGate

/-! ## Exchanges -/

/-- What a request gives: the response, and what was reported and watched on the way to it. -/
structure Exchange where
  response : Response
  events : List Event := []
  calls : List Call := []
deriving DecidableEq, Repr

namespace Filter

variable {σ : Type}

/-- Put one request to a filter: the exchange, and the memory after it. -/
def exchange (f : Filter σ) (request : Request) (s : σ) : Exchange × σ :=
  let (response, w) := f.respond request (.fresh s)
  (⟨response, w.events, w.calls⟩, w.state)

/-- Put requests to a filter, one after another: the exchanges, each with the memory after it. -/
def exchanges (f : Filter σ) : List Request → σ → List (Exchange × σ)
  | [], _ => []
  | request :: rest, s => f.exchange request s :: exchanges f rest (f.exchange request s).2

/-- The memory after requests. -/
def memoryAfter (f : Filter σ) (requests : List Request) (s : σ) : σ :=
  requests.foldl (fun s request => (f.exchange request s).2) s

theorem memoryAfter_append (f : Filter σ) (xs ys : List Request) (s : σ) :
    f.memoryAfter (xs ++ ys) s = f.memoryAfter ys (f.memoryAfter xs s) := List.foldl_append

theorem exchanges_append (f : Filter σ) (xs ys : List Request) (s : σ) :
    f.exchanges (xs ++ ys) s = f.exchanges xs s ++ f.exchanges ys (f.memoryAfter xs s) := by
  induction xs generalizing s with
  | nil => rfl
  | cons request rest ih => exact congrArg (_ :: ·) (ih _)

theorem Moves.memoryAfter {R : σ → σ → Prop} [IsPreorder σ R] {f : Filter σ} (h : f.Moves R)
    (requests : List Request) (s : σ) : R s (f.memoryAfter requests s) := by
  induction requests generalizing s with
  | nil => exact refl_of R s
  | cons request rest ih => exact trans_of R (h.respond request (.fresh s)) (ih _)

end Filter

/-! ## Deeds -/

/-- What an owner does with its chain. -/
inductive Deed (σ : Type) where
  | ask (request : Request)
  | push (f : Filter σ)

/-- The filters that an owner pushes in the course of deeds, in order. -/
def pushedBy {ι σ : Type} [DecidableEq ι] (i : ι) : List (ι × Deed σ) → Chain σ
  | [] => []
  | (_, .ask _) :: rest => pushedBy i rest
  | (j, .push f) :: rest => if j = i then f :: pushedBy i rest else pushedBy i rest

/-- The lists of the owners of chains, over the memory that their filters share. -/
structure Holdings (ι σ : Type) where
  lists : ι → Chain σ
  memory : σ

namespace Holdings

variable {ι σ : Type} [DecidableEq ι]

/-- One owner gets the list of another. -/
def clone (h : Holdings ι σ) (copy source : ι) : Holdings ι σ :=
  { h with lists := Function.update h.lists copy (h.lists source) }

/-- The filter that an owner's list makes. -/
def filterOf (h : Holdings ι σ) (i : ι) : Filter σ := Chain.toFilter (h.lists i)

/-- The holdings after a deed. -/
def act (h : Holdings ι σ) (i : ι) : Deed σ → Holdings ι σ
  | .ask request => { h with memory := ((h.filterOf i).exchange request h.memory).2 }
  | .push f => { h with lists := Function.update h.lists i (h.lists i ++ [f]) }

/-- The holdings after deeds, each done by its owner. -/
def after (h : Holdings ι σ) (deeds : List (ι × Deed σ)) : Holdings ι σ :=
  deeds.foldl (fun h deed => h.act deed.1 deed.2) h

/-- The exchanges in the course of deeds, each with its owner and with the memory after it. -/
def exchanges (h : Holdings ι σ) : List (ι × Deed σ) → List (ι × Exchange × σ)
  | [] => []
  | (i, .ask request) :: rest =>
      (i, (h.filterOf i).exchange request h.memory) :: exchanges (h.act i (.ask request)) rest
  | (i, .push f) :: rest => exchanges (h.act i (.push f)) rest

/-- The deed of putting a request to an owner's chain. -/
def asked (call : ι × Request) : ι × Deed σ := (call.1, .ask call.2)

/-! ## Lists -/

theorem lists_clone (h : Holdings ι σ) {copy source i : ι} (either : i = copy ∨ i = source) :
    (h.clone copy source).lists i = h.lists source := by
  simp only [clone, Function.update_apply]
  split
  · rfl
  · next apart =>
      rcases either with rfl | rfl
      · exact absurd rfl apart
      · rfl

/-- Each owner has the list it had before the deeds, and what it pushed itself. -/
theorem lists_after (h : Holdings ι σ) (deeds : List (ι × Deed σ)) (i : ι) :
    (h.after deeds).lists i = h.lists i ++ pushedBy i deeds := by
  induction deeds generalizing h with
  | nil => exact (List.append_nil _).symm
  | cons deed rest ih =>
      obtain ⟨j, deed⟩ := deed
      have later : (h.after ((j, deed) :: rest)).lists i = _ := ih (h.act j deed)
      rw [later]
      cases deed with
      | ask request => rfl
      | push f =>
          simp only [act, pushedBy, Function.update_apply]
          by_cases own : j = i
          · subst own
            rw [if_pos rfl, if_pos rfl, List.append_assoc, List.singleton_append]
          · rw [if_neg fun h => own h.symm, if_neg own]

/-- A request that comes after deeds is answered in the holdings that they leave. -/
theorem exchanges_concat (h : Holdings ι σ) (deeds : List (ι × Deed σ)) (i : ι)
    (request : Request) :
    h.exchanges (deeds ++ [(i, .ask request)])
      = h.exchanges deeds
        ++ [(i, ((h.after deeds).filterOf i).exchange request (h.after deeds).memory)] := by
  induction deeds generalizing h with
  | nil => rfl
  | cons deed rest ih =>
      obtain ⟨j, deed⟩ := deed
      cases deed with
      | ask => exact congrArg (_ :: ·) (ih _)
      | push => exact ih _

/-! ## Owners of the same list -/

/-- Whoever puts the requests, if all hold the same list, the exchanges are those of one chain. -/
theorem exchanges_of_held {chain : Chain σ} {calls : List (ι × Request)} {h : Holdings ι σ}
    (held : ∀ call ∈ calls, h.lists call.1 = chain) :
    (h.exchanges (calls.map asked)).map Prod.snd
      = (Chain.toFilter chain).exchanges (calls.map Prod.snd) h.memory := by
  induction calls generalizing h with
  | nil => rfl
  | cons call rest ih =>
      obtain ⟨own, others⟩ := List.forall_mem_cons.1 held
      have first : h.filterOf call.1 = Chain.toFilter chain := congrArg Chain.toFilter own
      have later := ih (h := h.act call.1 (.ask call.2)) others
      simp only [act, first] at later
      simp only [List.map_cons, asked, exchanges, Filter.exchanges, act, first]
      exact congrArg (_ :: ·) later

end Holdings

end MeterGate
