import MeterGate.Proofs.ByteOrder
import MeterGate.Proofs.Place
import Mathlib.Data.Finset.Card
import Mathlib.Data.Finset.Lattice.Lemmas

set_option autoImplicit false

/-! # The tag cap over a run

What a tag cap holds depends on the values that were offered to it (`Record.Reads`): they are all
there, in ascending order, and the flag is set exactly if there are more of them than allowed. So
whether its overflow filter has a say is a matter of the requests so far (`Limit.Exceeded`), and the
response to any request after any run can be given, with the world in which the overflow filter
finds itself when it is asked. All it takes is that the overflow filter does not reach into the
cap's own record. -/

namespace MeterGate

namespace TagCap

/-! ## The record of a list of values -/

theorem pairwise_insertValue {v : String} {values : List String}
    (h : values.Pairwise (· < ·)) : (insertValue v values).Pairwise (· < ·) := by
  induction values with
  | nil => exact List.pairwise_singleton _ v
  | cons w rest ih =>
      obtain ⟨hw, hrest⟩ := List.pairwise_cons.1 h
      unfold insertValue
      split
      · exact h
      · next hne =>
          split
          · next hlt =>
              refine List.pairwise_cons.2 ⟨fun x hx => ?_, h⟩
              rcases List.mem_cons.1 hx with rfl | hx
              · exact hlt
              · exact lt_trans hlt (hw x hx)
          · next hge =>
              refine List.pairwise_cons.2 ⟨fun x hx => ?_, ih hrest⟩
              rcases mem_insertValue.1 hx with rfl | hx
              · exact lt_of_le_of_ne (not_lt.1 hge) (Ne.symm hne)
              · exact hw x hx

theorem length_of_ascending {values vs : List String} (ascending : values.Pairwise (· < ·))
    (mem_iff : ∀ v, v ∈ values ↔ v ∈ vs) : values.length = vs.toFinset.card := by
  have nodup : values.Nodup := ascending.imp fun hlt => ne_of_lt hlt
  rw [← List.toFinset_card_of_nodup nodup]
  congr 1
  ext v
  simp [mem_iff]

namespace Record

/-- What a cap holds after values were offered to it in order. -/
def ofValues (max : Nat) (vs : List String) : Record := vs.foldl (fun r v => r.offer max v) {}

theorem ofValues_concat (max : Nat) (vs : List String) (v : String) :
    ofValues max (vs ++ [v]) = (ofValues max vs).offer max v := by
  simp [ofValues]

/-- What a record says about the values that were offered. -/
structure Reads (max : Nat) (vs : List String) (r : Record) : Prop where
  ascending : r.values.Pairwise (· < ·)
  mem_iff : ∀ v, v ∈ r.values ↔ v ∈ vs
  tripped_iff : r.tripped = true ↔ max < vs.toFinset.card

namespace Reads

variable {max : Nat} {vs : List String} {r : Record}

theorem length_values (h : Reads max vs r) : r.values.length = vs.toFinset.card :=
  length_of_ascending h.ascending h.mem_iff

theorem isOver_iff (h : Reads max vs r) : r.isOver max = true ↔ max < vs.toFinset.card := by
  simp only [isOver, decide_eq_true_eq, h.length_values]

theorem offer (h : Reads max vs r) (v : String) : Reads max (vs ++ [v]) (r.offer max v) := by
  have members : ∀ x, x ∈ insertValue v r.values ↔ x ∈ vs ++ [v] := by
    intro x
    rw [mem_insertValue, h.mem_iff, List.mem_append, List.mem_singleton, or_comm]
  have ascending := pairwise_insertValue (v := v) h.ascending
  have grow : vs.toFinset.card ≤ (vs ++ [v]).toFinset.card := Finset.card_le_card (by simp)
  have counted : (insertValue v r.values).length = (vs ++ [v]).toFinset.card :=
    length_of_ascending ascending members
  refine ⟨ascending, members, ?_⟩
  simp only [Record.offer, isOver, counted, Bool.or_eq_true, h.tripped_iff, decide_eq_true_eq]
  omega

end Reads

theorem reads_ofValues (max : Nat) (vs : List String) : Reads max vs (ofValues max vs) := by
  induction vs using List.reverseRecOn with
  | nil => exact ⟨List.Pairwise.nil, fun _ => Iff.rfl, by simp [ofValues]⟩
  | append_singleton vs v ih =>
      rw [ofValues_concat]
      exact ih.offer v

end Record

/-! ## One call -/

variable {σ : Type} {cell : Cell σ Record} {limit : Limit} {overflow : Filter σ}

theorem accept_of_none {id : MeterId} (h : limit.valueOf? id = none) (w : World σ) :
    accept cell limit overflow id w = .ok .neutral w := by
  simp only [accept, h, Eval.pure_apply]

theorem accept_of_some {id : MeterId} {v : String} (h : limit.valueOf? id = some v) (w : World σ) :
    accept cell limit overflow id w =
      let before := cell.get w.state
      let after := before.offer limit.max v
      if after.isOver limit.max then
        overflow.accept id (if before.tripped then w.put cell after
          else (w.put cell after).log (.tagCapTripped limit.name limit.key limit.max))
      else .ok .neutral (w.put cell after) := by
  simp only [accept, h, Eval.bind_apply, Eval.read_apply, Eval.write_apply]
  by_cases exceeds : ((cell.get w.state).offer limit.max v).isOver limit.max = true
  · by_cases tripped : (cell.get w.state).tripped = true
    · simp [exceeds, tripped]
    · simp [exceeds, tripped, Eval.bind_apply]
  · simp [exceeds]

theorem configure_apply (id : MeterId) (config : DistributionConfig) (w : World σ) :
    configure cell limit overflow id config w =
      if (cell.get w.state).isOver limit.max then overflow.configure id config w
      else .ok config w := by
  simp only [configure, Eval.bind_apply, Eval.read_apply]
  split <;> rfl

/-- The distinct values that a tag cap counts among ids. -/
def Limit.valuesAmong (limit : Limit) (ids : List MeterId) : Finset String :=
  (ids.filterMap limit.valueOf?).toFinset

/-! ## Requests -/

/-- The value that a request makes a cap count. -/
def Limit.counted? (limit : Limit) : Request → Option String
  | .accept id | .register id _ => limit.valueOf? id
  | .map _ | .configure _ _ => none

/-- The values counted among requests. -/
def Limit.counted (limit : Limit) (requests : List Request) : Finset String :=
  (requests.filterMap limit.counted?).toFinset

/-- Among the requests there are more values than the limit allows. -/
def Limit.Exceeded (limit : Limit) (requests : List Request) : Prop :=
  limit.max < (limit.counted requests).card

instance (limit : Limit) (requests : List Request) : Decidable (limit.Exceeded requests) :=
  inferInstanceAs (Decidable (_ < _))

/-- What a cap itself reports about a request after others: the first value too many. -/
def Limit.warning (limit : Limit) (past : List Request) (request : Request) : List Event :=
  if ¬ limit.Exceeded past ∧ limit.Exceeded (past ++ [request]) then
    [.tagCapTripped limit.name limit.key limit.max]
  else []

theorem Limit.counted_concat (limit : Limit) (past : List Request) (request : Request) :
    limit.counted (past ++ [request])
      = limit.counted past ∪ (limit.counted? request).toList.toFinset := by
  unfold counted
  rw [List.filterMap_append, List.toFinset_append]
  cases h : limit.counted? request <;> simp [h]

theorem Limit.Exceeded.concat {limit : Limit} {past : List Request} (h : limit.Exceeded past)
    (request : Request) : limit.Exceeded (past ++ [request]) := by
  unfold Exceeded at *
  rw [counted_concat]
  exact h.trans_le (Finset.card_le_card Finset.subset_union_left)

/-- Over a whole run there is one warning if the limit comes to be exceeded, and none else. -/
theorem Limit.flatMap_warning (limit : Limit) (past : List Request) :
    past.zipIdx.flatMap (fun (request, i) => limit.warning (past.take i) request)
      = if limit.Exceeded past then [.tagCapTripped limit.name limit.key limit.max] else [] := by
  induction past using List.reverseRecOn with
  | nil => simp [Exceeded, counted]
  | append_singleton past request ih =>
      have earlier :
          past.zipIdx.flatMap (fun (r, i) => limit.warning ((past ++ [request]).take i) r)
            = past.zipIdx.flatMap (fun (r, i) => limit.warning (past.take i) r) := by
        apply List.flatMap_congr
        rintro ⟨r, i⟩ hentry
        have hi := (List.mem_zipIdx hentry).2.1
        simp only [List.take_append_of_le_length (show i ≤ past.length by omega)]
      rw [List.zipIdx_append, List.flatMap_append, earlier, ih]
      simp only [List.zipIdx_singleton, Nat.zero_add, List.flatMap_cons, List.flatMap_nil,
        List.append_nil, List.take_left', warning]
      by_cases h : limit.Exceeded past
      · simp [h, h.concat request]
      · simp [h]

/-! ## Runs -/

section Runs

variable (apart : overflow.Keeps cell.get)
include apart

theorem keeps_configure (id : MeterId) (config : DistributionConfig) :
    Eval.Keeps cell.get (configure cell limit overflow id config) := by
  refine (Eval.Keeps.read cell).bind fun record => ?_
  split
  · exact apart.configure id config
  · exact .pure config

theorem get_worldAfter_accept (id : MeterId) (w : World σ) :
    cell.get ((accept cell limit overflow id).worldAfter w).state
      = match limit.valueOf? id with
        | none => cell.get w.state
        | some v => (cell.get w.state).offer limit.max v := by
  cases h : limit.valueOf? id with
  | none =>
      unfold Eval.worldAfter
      rw [accept_of_none h]
  | some v =>
      have kept := apart.accept id
      unfold Eval.worldAfter
      rw [accept_of_some h]
      simp only
      by_cases exceeds : ((cell.get w.state).offer limit.max v).isOver limit.max = true
      · -- the value is noted before the overflow filter is asked, which cannot reach the record
        simp only [exceeds, if_true]
        refine (kept _).trans ?_
        split <;> simp
      · simp [exceeds]

/-- A request makes a cap take in the value that it brings, and nothing else. -/
theorem get_respond (request : Request) (w : World σ) :
    cell.get ((Filter.tagCap cell limit overflow).respond request w).2.state
      = match limit.counted? request with
        | none => cell.get w.state
        | some v => (cell.get w.state).offer limit.max v := by
  rw [Filter.respond_snd]
  cases request with
  | register id config =>
      refine Eq.trans ?_ (get_worldAfter_accept apart id w)
      refine (Eval.Keeps.worldAfter_bind (fun _ => .pure _) w).trans ?_
      exact Filter.keeps_register (f := .tagCap cell limit overflow) (keeps_configure apart) id
        config w
  | map id => rfl
  | accept id =>
      refine (Eval.Keeps.worldAfter_bind (fun _ => .pure _) w).trans ?_
      exact get_worldAfter_accept apart id w
  | configure id config =>
      refine (Eval.Keeps.worldAfter_bind (fun _ => .pure _) w).trans ?_
      exact keeps_configure apart id config w

/-- What a cap holds depends on the values that came, and on nothing else in the memory. -/
theorem get_after (w : World σ) (blank : cell.get w.state = {}) (past : List Request) :
    cell.get ((Filter.tagCap cell limit overflow).after past w).state
      = .ofValues limit.max (past.filterMap limit.counted?) := by
  induction past using List.reverseRecOn with
  | nil => exact blank
  | append_singleton past request ih =>
      rw [Filter.after_concat, get_respond apart, ih, List.filterMap_append]
      cases h : limit.counted? request with
      | none => simp [h]
      | some v => simp [h, Record.ofValues_concat]

theorem reads_after (w : World σ) (blank : cell.get w.state = {}) (past : List Request) :
    (cell.get ((Filter.tagCap cell limit overflow).after past w).state).Reads limit.max
      (past.filterMap limit.counted?) := by
  rw [get_after apart w blank]
  exact Record.reads_ofValues limit.max _

end Runs

/-- The response to an id with a counted value, once the record is known. -/
theorem respond_accept_of_some {id : MeterId} {v : String} (h : limit.valueOf? id = some v)
    {now : World σ} {past : List Request}
    (reads : (cell.get now.state).Reads limit.max (past.filterMap limit.counted?)) :
    (Filter.tagCap cell limit overflow).respond (.accept id) now =
      let noted := now.put cell ((cell.get now.state).offer limit.max v)
      if limit.Exceeded (past ++ [.accept id]) then
        overflow.respond (.accept id) (noted.logAll (limit.warning past (.accept id)))
      else (.reply .neutral, noted) := by
  have brought : limit.counted? (.accept id) = some v := h
  have tripped : (cell.get now.state).tripped = decide (limit.Exceeded past) := by
    rw [Bool.eq_iff_iff, reads.tripped_iff, decide_eq_true_iff]
    rfl
  have exceeds : ((cell.get now.state).offer limit.max v).isOver limit.max
      = decide (limit.Exceeded (past ++ [.accept id])) := by
    rw [Bool.eq_iff_iff, (reads.offer v).isOver_iff, decide_eq_true_iff]
    simp [Limit.Exceeded, Limit.counted, List.filterMap_append, brought]
  rw [Filter.respond_accept]
  simp only [Filter.tagCap, accept_of_some h, exceeds, tripped, decide_eq_true_eq]
  by_cases after : limit.Exceeded (past ++ [.accept id])
  · simp only [after, if_true, Filter.respond_accept, Limit.warning, and_true]
    by_cases before : limit.Exceeded past
    · simp [before, World.logAll_nil]
    · simp [before, World.log_eq_logAll]
  · simp only [after, if_false]

end TagCap

end MeterGate
