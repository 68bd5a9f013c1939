import MeterGate.Proofs.Holdings
import MeterGate.Script.Session

set_option autoImplicit false

/-! # Clones share filters, not lists

In a session a chain is a name for a list of filters, and a clone is another name for the same list.
Filters that remember something do so in the store, so both names lead to the same limiters: calls
by either name are calls by one of them (`carryOut_asks`). A push gives its name a longer list and
leaves what the other name stands for (`lookUp_run_of_not_pushes`).

The main theorem (`cloneChain_shares_filters`) says so of sessions, and of chains of arbitrary
filters in the hands of several owners (`Holdings`). -/

namespace MeterGate.Script

/-! ## Names -/

theorem lookUp_cons {α : Type} (name other : String) (a : α) (bindings : List (String × α)) :
    lookUp name ((other, a) :: bindings)
      = if other = name then .ok a else lookUp name bindings := by
  unfold lookUp
  by_cases h : other = name <;> simp [h]

theorem lookUp_setChain (s : Scope) (on name : String) (filters : List StockFilter) :
    lookUp name (s.setChain on filters).chains
      = if on = name then .ok filters else lookUp name s.chains :=
  lookUp_cons name on filters s.chains

namespace FilterForm

mutual

/-- To make a filter gives no name to a chain. -/
theorem chains_make {s s' : Scope} {f : StockFilter} (form : FilterForm)
    (made : form.make s = .ok (f, s')) : s'.chains = s.chains := by
  cases form with
  | tagCap limit overflow =>
      obtain ⟨⟨g, t⟩, inside, rest⟩ := ok_of_bind_ok made
      have kept : t.chains = s.chains := chains_make overflow inside
      cases rest
      exact kept
  | boxed inner | watched label inner | named name inner =>
      obtain ⟨⟨g, t⟩, inside, rest⟩ := ok_of_bind_ok made
      have kept : t.chains = s.chains := chains_make inner inside
      cases rest
      exact kept
  | chain filters =>
      obtain ⟨⟨fs, t⟩, inside, rest⟩ := ok_of_bind_ok made
      have kept : t.chains = s.chains := chains_makeAll filters inside
      cases rest
      exact kept
  | chainCopy name | use name =>
      obtain ⟨found, known, rest⟩ := ok_of_bind_ok made
      cases rest
      rfl
  | _ =>
      cases made
      rfl

theorem chains_makeAll {s s' : Scope} {fs : List StockFilter} (forms : List FilterForm)
    (made : makeAll forms s = .ok (fs, s')) : s'.chains = s.chains := by
  cases forms with
  | nil =>
      cases made
      rfl
  | cons form rest =>
      obtain ⟨⟨g, t⟩, first, more⟩ := ok_of_bind_ok made
      obtain ⟨⟨gs, u⟩, others, last⟩ := ok_of_bind_ok more
      cases last
      exact (chains_makeAll rest others).trans (chains_make form first)

end

end FilterForm

/-! ## Steps by a name -/

/-- Whether a step asks something by a name or pushes onto a chain. -/
def Step.usesChain : Step → Bool
  | ask _ _ | push _ _ => true
  | _ => false

/-- Whether a step pushes onto the chain of a name. -/
def Step.pushesOnto (name : String) : Step → Bool
  | push on _ => on = name
  | _ => false

section

variable {outcomes : List Outcome} {s s' : Scope} {name : String} {filters : List StockFilter}
  (known : lookUp name s.chains = .ok filters)
include known

theorem run_ask (request : Request) :
    Step.run outcomes s (.ask name request)
      = .ok (Script.ask s (Chain.toFilter (StockFilter.toChain filters)) request) := by
  have found : target s name = .ok (Chain.toFilter (StockFilter.toChain filters)) := by
    unfold target
    rw [known]
  rw [Step.run, found]
  rfl

theorem run_push {form : FilterForm} {outcome : Outcome}
    (ran : Step.run outcomes s (.push name form) = .ok (outcome, s')) :
    ∃ f, lookUp name s'.chains = .ok (filters ++ [f]) := by
  obtain ⟨list, found, more⟩ := ok_of_bind_ok ran
  obtain ⟨⟨f, t⟩, made, last⟩ := ok_of_bind_ok more
  cases known.symm.trans found
  cases last
  exact ⟨f, (lookUp_setChain t name name _).trans (if_pos rfl)⟩

/-- A request, or a push onto another chain, leaves the list that a name stands for. -/
theorem lookUp_run_of_not_pushes {step : Step} (used : step.usesChain = true)
    (other : step.pushesOnto name = false) {outcome : Outcome}
    (ran : step.run outcomes s = .ok (outcome, s')) : lookUp name s'.chains = .ok filters := by
  cases step with
  | ask on request =>
      obtain ⟨f, found, rest⟩ := ok_of_bind_ok ran
      cases rest
      exact known
  | push on form =>
      have apart : on ≠ name := of_decide_eq_false other
      obtain ⟨list, found, more⟩ := ok_of_bind_ok ran
      obtain ⟨⟨f, t⟩, made, last⟩ := ok_of_bind_ok more
      have kept : t.chains = s.chains := form.chains_make made
      cases last
      rw [lookUp_setChain, if_neg apart, kept, known]
  | _ => cases used

end

/-! ## Runs of steps -/

/-- Carry out steps in order, after others with the given outcomes: the outcomes of all, and what
    there is in the end. -/
def carryOut (outcomes : List Outcome) (s : Scope) :
    List Step → Except ScriptFault (List Outcome × Scope)
  | [] => .ok (outcomes, s)
  | step :: rest => do
      let (outcome, s) ← step.run outcomes s
      carryOut (outcomes ++ [outcome]) s rest

theorem runFrom_eq (outcomes : List Outcome) (s : Scope) (steps : List Step) :
    runFrom outcomes s steps = Prod.fst <$> carryOut outcomes s steps := by
  induction steps generalizing outcomes s with
  | nil => rfl
  | cons step rest ih =>
      unfold runFrom carryOut
      cases step.run outcomes s with
      | ok stepped => exact ih _ _
      | error fault => rfl

/-- The outcome of a request. -/
def Outcome.ofExchange (x : Exchange) : Outcome := ⟨.response x.response, x.events, x.calls⟩

/-- Requests by names of one list of filters are carried out as the requests to one chain. -/
theorem carryOut_asks {filters : List StockFilter} {calls : List (String × Request)} {s : Scope}
    (known : ∀ call ∈ calls, lookUp call.1 s.chains = .ok filters) (outcomes : List Outcome) :
    let f := Chain.toFilter (StockFilter.toChain filters)
    let requests := calls.map Prod.snd
    carryOut outcomes s (calls.map fun call => .ask call.1 call.2)
      = .ok (outcomes ++ (f.exchanges requests s.store).map fun x => .ofExchange x.1,
          { s with store := f.memoryAfter requests s.store }) := by
  induction calls generalizing s outcomes with
  | nil =>
      show Except.ok (outcomes, s) = Except.ok (outcomes ++ [], s)
      rw [List.append_nil]
  | cons call rest ih =>
      intro f requests
      obtain ⟨own, others⟩ := List.forall_mem_cons.1 known
      have later := ih (s := (Script.ask s f call.2).2) others
        (outcomes ++ [(Script.ask s f call.2).1])
      rw [List.map_cons, carryOut, run_ask own]
      refine later.trans ?_
      rw [List.append_assoc, List.singleton_append]
      rfl

/-- Of the chain that a name stands for, steps keep all filters, and add one with each push. -/
theorem lookUp_carryOut {steps : List Step} (used : ∀ step ∈ steps, step.usesChain = true)
    {outcomes ran : List Outcome} {s s' : Scope} {name : String} {filters : List StockFilter}
    (known : lookUp name s.chains = .ok filters)
    (carried : carryOut outcomes s steps = .ok (ran, s')) :
    ∃ pushed, lookUp name s'.chains = .ok (filters ++ pushed)
      ∧ pushed.length = steps.countP (Step.pushesOnto name) := by
  induction steps generalizing outcomes s filters with
  | nil =>
      cases carried
      exact ⟨[], by rw [known, List.append_nil], rfl⟩
  | cons step rest ih =>
      obtain ⟨usedHere, usedLater⟩ := List.forall_mem_cons.1 used
      obtain ⟨⟨outcome, t⟩, first, more⟩ := ok_of_bind_ok carried
      cases own : step.pushesOnto name with
      | false =>
          have kept := lookUp_run_of_not_pushes known usedHere own first
          obtain ⟨pushed, found, count⟩ := ih usedLater kept more
          exact ⟨pushed, found, by rw [List.countP_cons_of_neg (by simp [own]), count]⟩
      | true =>
          cases step with
          | push on form =>
              obtain rfl : on = name := of_decide_eq_true own
              obtain ⟨f, grown⟩ := run_push known first
              obtain ⟨pushed, found, count⟩ := ih usedLater grown more
              refine ⟨f :: pushed, by rw [found, List.append_assoc, List.singleton_append], ?_⟩
              rw [List.countP_cons_of_pos own, List.length_cons, count]
          | _ => cases own

/-! ## Clones -/

/-- A clone is another name for the list, and changes nothing else. -/
theorem run_cloneChain {outcomes : List Outcome} {s : Scope} {source : String}
    {filters : List StockFilter} (known : lookUp source s.chains = .ok filters) (copy : String) :
    Step.run outcomes s (.cloneChain copy source)
      = .ok (⟨.length filters.length, [], []⟩, s.setChain copy filters) := by
  rw [Step.run, known]
  rfl

theorem lookUp_clone {s : Scope} {copy source name : String} {filters : List StockFilter}
    (known : lookUp source s.chains = .ok filters) (either : name = copy ∨ name = source) :
    lookUp name (s.setChain copy filters).chains = .ok filters := by
  rw [lookUp_setChain]
  split
  · rfl
  · next apart =>
      rcases either with rfl | rfl
      · exact absurd rfl apart
      · exact known

/-- **Clones share filters, not lists.** In a session a chain is cloned, in whatever state it is.

    Whatever requests follow, each by the name of the clone or of the original, they have the
    outcomes, with the events reported, and leave the limiter records that they have and leave
    where there is no clone and all are put to the original. If there are pushes among them, then
    at any point each of the two names stands for the filters of the original and as many more as
    were pushed onto it by this name; a request by the name is answered by these filters, and
    neither a request nor a push by another name changes what they are.

    The same holds of chains of any filters, whatever these remember and do, that several owners
    hold: as long as an owner and the one it was cloned from push nothing, the exchanges and the
    memory after each are those of one of them putting all requests; and after any deeds each has
    the original list and what it pushed itself, and is answered by these filters. -/
theorem cloneChain_shares_filters (outcomes : List Outcome) (s : Scope) (copy source : String)
    (filters : List StockFilter) (known : lookUp source s.chains = .ok filters) :
    (∃ cloned : Scope,
      Step.run outcomes s (.cloneChain copy source)
          = .ok (⟨.length filters.length, [], []⟩, cloned) ∧
      (∀ calls : List (String × Request),
        (∀ call ∈ calls, call.1 = copy ∨ call.1 = source) →
        ∃ answers ending alone,
          carryOut outcomes cloned (calls.map fun call => .ask call.1 call.2)
            = .ok (outcomes ++ answers, ending) ∧
          carryOut outcomes s (calls.map fun call => .ask source call.2)
            = .ok (outcomes ++ answers, alone) ∧
          ending.store = alone.store) ∧
      ∀ (steps : List Step) (ran : List Outcome) (now : Scope),
        (∀ step ∈ steps, step.usesChain = true) →
        carryOut outcomes cloned steps = .ok (ran, now) →
        ∀ name, name = copy ∨ name = source →
        ∃ pushed,
          pushed.length = steps.countP (Step.pushesOnto name) ∧
          lookUp name now.chains = .ok (filters ++ pushed) ∧
          (∀ request, Step.run ran now (.ask name request)
            = .ok (ask now (Chain.toFilter (StockFilter.toChain (filters ++ pushed))) request)) ∧
          ∀ (step : Step) (outcome : Outcome) (next : Scope), step.usesChain = true →
            step.pushesOnto name = false → step.run ran now = .ok (outcome, next) →
            lookUp name next.chains = .ok (filters ++ pushed)) ∧
    ∀ (ι σ : Type) [DecidableEq ι] (h : Holdings ι σ) (copy source : ι),
      (∀ calls : List (ι × Request), (∀ call ∈ calls, call.1 = copy ∨ call.1 = source) →
        ((h.clone copy source).exchanges (calls.map Holdings.asked)).map Prod.snd
          = (h.exchanges (calls.map fun call => Holdings.asked (source, call.2))).map Prod.snd) ∧
      ∀ (deeds : List (ι × Deed σ)) (i : ι), i = copy ∨ i = source →
        let list := h.lists source ++ pushedBy i deeds
        let now := (h.clone copy source).after deeds
        now.lists i = list ∧
        ∀ request, (h.clone copy source).exchanges (deeds ++ [(i, .ask request)])
          = (h.clone copy source).exchanges deeds
            ++ [(i, (Chain.toFilter list).exchange request now.memory)] := by
  refine ⟨⟨_, run_cloneChain known copy, ?_, ?_⟩, ?_⟩
  · intro calls either
    have original : ∀ call ∈ calls.map fun call => (source, call.2),
        lookUp call.1 s.chains = .ok filters := List.forall_mem_map.2 fun _ _ => known
    have both := carryOut_asks (fun call mem => lookUp_clone known (either call mem)) outcomes
    have alone := carryOut_asks original outcomes
    simp only [List.map_map, Function.comp_def] at alone
    exact ⟨_, _, _, both, alone, rfl⟩
  · intro steps ran now used carried name either
    obtain ⟨pushed, found, count⟩ := lookUp_carryOut used (lookUp_clone known either) carried
    refine ⟨pushed, count, found, run_ask found, ?_⟩
    intro step outcome next uses other stepped
    exact lookUp_run_of_not_pushes found uses other stepped
  · intro ι σ _ h copy source
    refine ⟨fun calls either => ?_, fun deeds i either => ?_⟩
    · have original : ∀ call ∈ calls.map fun call => (source, call.2),
          h.lists call.1 = h.lists source := List.forall_mem_map.2 fun _ _ => rfl
      have both : ∀ call ∈ calls, (h.clone copy source).lists call.1 = h.lists source :=
        fun call mem => Holdings.lists_clone h (either call mem)
      have alone := Holdings.exchanges_of_held original
      simp only [List.map_map, Function.comp_def] at alone
      exact (Holdings.exchanges_of_held both).trans alone.symm
    · intro list now
      have held : now.lists i = list := by
        rw [Holdings.lists_after, Holdings.lists_clone h either]
      refine ⟨held, fun request => ?_⟩
      rw [Holdings.exchanges_concat, Holdings.filterOf, held]

/-- A metric cap with room for one series is cloned. The first series comes by the clone, the second
    by the original and is denied; then the clone gets a filter more, and the original does not. -/
theorem cloneChain_shares_filters_capped :
    let cap : List StockFilter := [.metricCap 0 1]
    let s : Scope := { store := { metrics := [{}] }, chains := [("main", cap)] }
    let a : MeterId := ⟨"a", .counter, [], none, none⟩
    let b : MeterId := ⟨"b", .counter, [], none, none⟩
    lookUp "main" s.chains = .ok cap ∧
    ∃ cloned ending now,
      Step.run [] s (.cloneChain "copy" "main") = .ok (⟨.length 1, [], []⟩, cloned) ∧
      carryOut [] cloned [.ask "copy" (.accept a), .ask "main" (.accept b)]
        = .ok ([⟨.response (.reply .neutral), [], []⟩,
          ⟨.response (.reply .deny), [.metricCapTripped "b" 1], []⟩], ending) ∧
      ending.store = { metrics := [⟨[a.series, b.series], true⟩] } ∧
      carryOut [] cloned [.push "copy" .denyAll] = .ok ([⟨.length 2, [], []⟩], now) ∧
      lookUp "main" now.chains = .ok cap := by
  intro cap s a b
  have known : lookUp "main" s.chains = .ok cap := rfl
  obtain ⟨⟨cloned, made, shared, apart⟩, -⟩ :=
    cloneChain_shares_filters [] s "copy" "main" cap known
  obtain ⟨answers, ending, alone, both, one, same⟩ :=
    shared [("copy", .accept a), ("main", .accept b)] (by simp)
  cases made.symm.trans (run_cloneChain known "copy")
  cases one
  refine ⟨known, _, ending, _, made, both, same, rfl, ?_⟩
  obtain ⟨pushed, count, found, -⟩ := apart [.push "copy" .denyAll] _ _ (by simp [Step.usesChain])
    rfl "main" (Or.inr rfl)
  rw [found, List.eq_nil_of_length_eq_zero count, List.append_nil]

end MeterGate.Script
