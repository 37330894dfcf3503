import CStack.Concurrent.Cas
import CStack.Platform

namespace swipl.cstack.cas

open swipl.cstack

variable {σ : Type}

/-- What one step of `next_btrace_id` can do: it moves one invocation `t` that has not
returned and no other, and either logs nothing and leaves `t` running, or logs `t`'s successful
swap, `t` returning the cursor it swapped. -/
theorem Step.moves_one {s s' : State} (h : Step s s') :
    ∃ t, (∀ c, s.pc t ≠ .done c) ∧ (∀ u, u ≠ t → s'.pc u = s.pc u) ∧
      ((s'.log = s.log ∧ ∀ c, s'.pc t ≠ .done c) ∨
        (s'.log = s.log ++ [(t, s.current, next_of s.current)] ∧ s'.pc t = .done s.current)) := by
  cases h with
  | read t htop =>
    exact ⟨t, by simp [htop], fun u hu => Function.update_noteq hu _ _, .inl ⟨rfl, by simp⟩⟩
  | swap_ok t hpc heq =>
    subst heq
    exact ⟨t, by simp [hpc], fun u hu => Function.update_noteq hu _ _, .inr ⟨rfl, by simp⟩⟩
  | swap_fail t hpc _ =>
    exact ⟨t, by simp [hpc], fun u hu => Function.update_noteq hu _ _, .inl ⟨rfl, by simp⟩⟩

/-- Concurrent `save_backtrace` calls on one store of the `COMPARE_AND_SWAP` build: where each
invocation's `next_btrace_id` is, the slots, and how many of its stores to the slot it reserved
each invocation has made. -/
structure SaveState (σ : Type) where
  ids : State
  dumps : Fin SAVE_TRACES → σ
  written : Nat → Nat

/-- One step of one invocation, `writes t` being the stores invocation `t` makes to
`bt->dumps[current]` once `next_btrace_id` has returned `current`: a step of `next_btrace_id`,
or the invocation's next store. A store is atomic; a signal handler that preempts a save and
saves in turn is one of the interleavings. -/
inductive SaveStep (writes : Nat → List (σ → σ)) : SaveState σ → SaveState σ → Prop
  | reserve {s : SaveState σ} {ids : State} (h : Step s.ids ids) :
      SaveStep writes s { s with ids := ids }
  | write {s : SaveState σ} (t : Nat) {id : Int} {i : Fin SAVE_TRACES} {f : σ → σ}
      (hpc : s.ids.pc t = .done id) (hi : slotIndex? id = some i)
      (hf : (writes t)[s.written t]? = some f) :
      SaveStep writes s { s with dumps := Function.update s.dumps i (f (s.dumps i)),
                                 written := Function.update s.written t (s.written t + 1) }

/-- The states some interleaving reaches from cursor `c0` and slots `d0`. -/
inductive SaveReachable (writes : Nat → List (σ → σ)) (c0 : Int) (d0 : Fin SAVE_TRACES → σ) :
    SaveState σ → Prop
  | init : SaveReachable writes c0 d0 ⟨init c0, d0, fun _ => 0⟩
  | step {s s' : SaveState σ} : SaveReachable writes c0 d0 s → SaveStep writes s s' →
      SaveReachable writes c0 d0 s'

/-- The next step of invocation `t`: one of its `next_btrace_id`, or once that has returned, its
next store; `none` once it has made them all. -/
def SaveState.step? (writes : Nat → List (σ → σ)) (s : SaveState σ) (t : Nat) :
    Option (SaveState σ) :=
  match s.ids.pc t with
  | .done c =>
    match slotIndex? c, (writes t)[s.written t]? with
    | some i, some f =>
      some { s with dumps := Function.update s.dumps i (f (s.dumps i)),
                    written := Function.update s.written t (s.written t + 1) }
    | _, _ => none
  | _ => (cas.step? s.ids t).map fun ids => { s with ids := ids }

theorem SaveState.step?_sound {writes : Nat → List (σ → σ)} {s s' : SaveState σ} {t : Nat}
    (h : s.step? writes t = some s') : SaveStep writes s s' := by
  unfold SaveState.step? at h
  split at h
  · split at h
    · cases h
      exact .write t ‹_› ‹_› ‹_›
    · cases h
  · obtain ⟨ids, hids, rfl⟩ := Option.map_eq_some'.mp h
    exact .reserve (cas.step?_sound hids)

/-- A step of invocation `t` makes no store for another invocation. -/
theorem SaveState.step?_written {writes : Nat → List (σ → σ)} {s s' : SaveState σ} {t : Nat}
    (h : s.step? writes t = some s') {u : Nat} (hu : u ≠ t) : s'.written u = s.written u := by
  unfold SaveState.step? at h
  split at h
  · split at h
    · cases h
      exact Function.update_noteq hu _ _
    · cases h
  · obtain ⟨ids, -, rfl⟩ := Option.map_eq_some'.mp h
    rfl

theorem SaveReachable.run? {writes : Nat → List (σ → σ)} {c0 : Int} {d0 : Fin SAVE_TRACES → σ}
    {s s' : SaveState σ} {ts : List Nat} (hs : SaveReachable writes c0 d0 s)
    (h : swipl.cstack.run? (SaveState.step? writes) s ts = some s') :
    SaveReachable writes c0 d0 s' :=
  run?_induct (SaveReachable writes c0 d0) (fun hs h => hs.step (SaveState.step?_sound h)) hs h

/-- The logged saves in swap order, each cut to the stores it has made. -/
def SaveState.made (writes : Nat → List (σ → σ)) (s : SaveState σ) : List (σ → σ) :=
  s.ids.log.map fun e => apply_writes ((writes e.1).take (s.written e.1))

@[simp] theorem SaveState.length_made (writes : Nat → List (σ → σ)) (s : SaveState σ) :
    (s.made writes).length = s.ids.log.length :=
  List.length_map _ _

/-- What holds of every reachable state: the invariant of the cursor machine, an invocation that
has returned is logged, and one that has not has made no store. -/
structure SaveInv (c0 : Int) (s : SaveState σ) : Prop where
  ids : Inv c0 s.ids
  logged : ∀ t c, s.ids.pc t = .done c → ∃ k, ∃ hk : k < s.ids.log.length, s.ids.log[k].1 = t
  idle : ∀ t, (∀ c, s.ids.pc t ≠ .done c) → s.written t = 0

section Invariant

variable {writes : Nat → List (σ → σ)} {c0 : Int} {d0 : Fin SAVE_TRACES → σ}

theorem saveInv_init (h0 : ValidCursor c0) : SaveInv c0 (⟨init c0, d0, fun _ => 0⟩ : SaveState σ) where
  ids := inv_init h0
  logged t c h := by simp [init] at h
  idle _ _ := rfl

theorem SaveInv.reserve {s : SaveState σ} {ids : State} (h : SaveInv c0 s) (hstep : Step s.ids ids) :
    SaveInv c0 { s with ids := ids } := by
  obtain ⟨t, hrun, hframe, hlog⟩ := hstep.moves_one
  refine ⟨h.ids.step hstep, fun u c hu => ?_, fun u hu => ?_⟩
  · by_cases hut : u = t
    · subst hut
      rcases hlog with ⟨-, hnd⟩ | ⟨hl, -⟩
      · exact absurd hu (hnd c)
      · exact ⟨s.ids.log.length, by simp [hl], by simp [hl]⟩
    · obtain ⟨k, hk, hkt⟩ := h.logged u c (hframe u hut ▸ hu)
      obtain ⟨extra, hl⟩ : ∃ extra, ids.log = s.ids.log ++ extra := by
        rcases hlog with ⟨hl, -⟩ | ⟨hl, -⟩
        · exact ⟨[], by simp [hl]⟩
        · exact ⟨_, hl⟩
      refine ⟨k, by simp [hl]; omega, ?_⟩
      simp only [hl, List.getElem_append_left hk, hkt]
  · by_cases hut : u = t
    · exact hut ▸ h.idle t hrun
    · exact h.idle u fun c => hframe u hut ▸ hu c

theorem SaveInv.step {s s' : SaveState σ} (h : SaveInv c0 s) (hstep : SaveStep writes s s') :
    SaveInv c0 s' := by
  cases hstep with
  | reserve hids => exact h.reserve hids
  | write t hpc _ _ =>
    refine ⟨h.ids, h.logged, fun u hu => ?_⟩
    have hut : u ≠ t := fun hut => hu _ (hut ▸ hpc)
    exact (Function.update_noteq hut _ _).trans (h.idle u hu)

theorem SaveReachable.saveInv (h0 : ValidCursor c0) {s : SaveState σ}
    (hs : SaveReachable writes c0 d0 s) : SaveInv c0 s := by
  induction hs with
  | init => exact saveInv_init h0
  | step _ hstep ih => exact ih.step hstep

theorem SaveStep.log_length_le {s s' : SaveState σ} (h : SaveStep writes s s') :
    s.ids.log.length ≤ s'.ids.log.length := by
  cases h with
  | reserve hids =>
    obtain ⟨_, _, _, hlog⟩ := hids.moves_one
    rcases hlog with ⟨hl, -⟩ | ⟨hl, -⟩ <;> simp [hl]
  | write => exact le_rfl

/-- A store of invocation `t`, logged `k`-th, extends the `k`-th save's prefix of stores by the
store it makes. -/
theorem SaveState.made_write {s : SaveState σ} (hnodup : (s.ids.log.map Prod.fst).Nodup)
    {t k : Nat} (hk : k < s.ids.log.length) (hkt : s.ids.log[k].1 = t) {f : σ → σ}
    (hf : (writes t)[s.written t]? = some f) (dumps : Fin SAVE_TRACES → σ) :
    ({ s with dumps, written := Function.update s.written t (s.written t + 1) } : SaveState σ).made
        writes =
      (s.made writes).set k (f ∘ apply_writes ((writes t).take (s.written t))) := by
  apply List.ext_getElem?
  intro k'
  simp only [SaveState.made, List.getElem?_set, List.length_map, List.getElem?_map]
  by_cases hkk : k = k'
  · subst hkk
    simp only [if_true, hk, List.getElem?_eq_getElem hk, Option.map_some']
    rw [hkt, Function.update_same]
    exact congrArg some (funext (apply_writes_take_succ hf))
  · rw [if_neg hkk]
    rcases Nat.lt_or_ge k' s.ids.log.length with hlt | hge
    · have hne : s.ids.log[k'].1 ≠ t := by
        rw [← hkt]
        intro heq
        exact hkk ((@List.Nodup.getElem_inj_iff _ _ hnodup k' (by simpa using hlt) k
          (by simpa using hk)).mp (by simp only [List.getElem_map]; exact heq)).symm
      simp only [List.getElem?_eq_getElem hlt, Option.map_some', Function.update_noteq hne]
    · rw [List.getElem?_eq_none hge]
      rfl

end Invariant

/-- Invocation `t` may store to its slot without tearing it: no save whose swap succeeded later
and returned the same id has stored yet. -/
def SaveState.Unlapped (s : SaveState σ) (t : Nat) : Prop :=
  ∀ k (hk : k < s.ids.log.length), s.ids.log[k].1 = t → ∀ k' (hk' : k' < s.ids.log.length),
    k < k' → s.ids.log[k'].2.1 = s.ids.log[k].2.1 → s.written s.ids.log[k'].1 = 0

instance (s : SaveState σ) (t : Nat) : Decidable (s.Unlapped t) :=
  inferInstanceAs (Decidable (∀ k (_ : k < s.ids.log.length), _))

/-- The states reached by the interleavings in which no save stores to its slot after a later
save that reserved the same slot has begun storing. -/
inductive OrderedReachable (writes : Nat → List (σ → σ)) (c0 : Int) (d0 : Fin SAVE_TRACES → σ) :
    SaveState σ → Prop
  | init : OrderedReachable writes c0 d0 ⟨init c0, d0, fun _ => 0⟩
  | step {s s' : SaveState σ} : OrderedReachable writes c0 d0 s → SaveStep writes s s' →
      (∀ t, s'.written t ≠ s.written t → s.Unlapped t) → OrderedReachable writes c0 d0 s'

/-- `SaveState.step?` in the interleavings `OrderedReachable` admits: `none` when invocation `t`
is lapped. -/
def SaveState.ordered_step? (writes : Nat → List (σ → σ)) (s : SaveState σ) (t : Nat) :
    Option (SaveState σ) :=
  if s.Unlapped t then s.step? writes t else none

theorem OrderedReachable.run? {writes : Nat → List (σ → σ)} {c0 : Int}
    {d0 : Fin SAVE_TRACES → σ} {s s' : SaveState σ} {ts : List Nat}
    (hs : OrderedReachable writes c0 d0 s)
    (h : swipl.cstack.run? (SaveState.ordered_step? writes) s ts = some s') :
    OrderedReachable writes c0 d0 s' := by
  refine run?_induct (OrderedReachable writes c0 d0) (fun {s t _} hs h => ?_) hs h
  unfold SaveState.ordered_step? at h
  split at h
  · refine hs.step (SaveState.step?_sound h) fun u hu => ?_
    by_cases hut : u = t
    · exact hut ▸ ‹_›
    · exact absurd (SaveState.step?_written h hut) hu
  · cases h

section Ordered

variable {writes : Nat → List (σ → σ)} {c0 : Int} {d0 : Fin SAVE_TRACES → σ}

theorem OrderedReachable.saveReachable {s : SaveState σ} (hs : OrderedReachable writes c0 d0 s) :
    SaveReachable writes c0 d0 s := by
  induction hs with
  | init => exact .init
  | step _ hstep _ ih => exact .step ih hstep

/-- Save number `k` lands in slot `(c0 + k) mod SAVE_TRACES`, the id its swap returned. -/
theorem Inv.slotOf_log {s : State} (h : Inv c0 s) (h0 : ValidCursor c0) {k : Nat}
    (hk : k < s.log.length) : ((slotOf (c0.toNat + k) : Nat) : Int) = s.log[k].2.1 := by
  rw [slotOf_val, congrArg Prod.fst (h.log k hk)]
  push_cast
  rw [Int.toNat_of_nonneg h0.1]

/-- The slot an invocation that has returned stores to is the one of its logged swap. -/
theorem SaveInv.slot_of_done {s : SaveState σ} (h : SaveInv c0 s) (h0 : ValidCursor c0) {t k : Nat}
    (hk : k < s.ids.log.length) (hkt : s.ids.log[k].1 = t) {c : Int} (hpc : s.ids.pc t = .done c)
    {i : Fin SAVE_TRACES} (hi : slotIndex? c = some i) : i = slotOf (c0.toNat + k) := by
  have hdone := h.ids.done k hk
  rw [hkt, hpc] at hdone
  have hslot := h.ids.slotOf_log h0 hk
  rw [← Pc.done.inj hdone, ← slotIndex?_eq_some hi] at hslot
  exact Fin.ext (by omega)

/-- While invocation `t`, logged `k`-th, is unlapped, the saves after it that land in its slot
have made no store. -/
theorem SaveInv.later_id {s : SaveState σ} (h : SaveInv c0 s) (h0 : ValidCursor c0) {t k : Nat}
    (hk : k < s.ids.log.length) (hkt : s.ids.log[k].1 = t) (hun : s.Unlapped t) :
    ∀ e ∈ (btrace.placed c0.toNat (s.made writes)).drop (k + 1),
      e.1 = slotOf (c0.toNat + k) → e.2 = id := by
  intro e he hei
  obtain ⟨j, hj⟩ := List.mem_iff_getElem?.mp he
  rw [List.getElem?_drop, btrace.getElem?_placed] at hj
  simp only [SaveState.made, List.getElem?_map, Option.map_map] at hj
  obtain ⟨e', he', rfl⟩ := Option.map_eq_some'.mp hj
  obtain ⟨hlt, rfl⟩ := List.getElem?_eq_some_iff.mp he'
  simp only [Function.comp] at hei ⊢
  have hsame : s.ids.log[k + 1 + j].2.1 = s.ids.log[k].2.1 := by
    rw [← h.ids.slotOf_log h0 hlt, ← h.ids.slotOf_log h0 hk, hei]
  rw [hun k hk hkt (k + 1 + j) hlt (by omega) hsame]
  rfl

/-- While no save is lapped, the slots are what the logged saves, in swap order and each cut to
the stores it has made, leave when made one after the other. -/
theorem OrderedReachable.dumps_eq (h0 : ValidCursor c0) {s : SaveState σ}
    (hs : OrderedReachable writes c0 d0 s) :
    s.dumps = write_slots (btrace.placed c0.toNat (s.made writes)) d0 := by
  induction hs with
  | init => rfl
  | @step s s' hs hstep hord ih =>
    have hinv := hs.saveReachable.saveInv h0
    cases hstep with
    | reserve hids =>
      obtain ⟨t, hrun, -, hlog⟩ := hids.moves_one
      rcases hlog with ⟨hl, -⟩ | ⟨hl, -⟩
      · exact ih.trans (by simp only [SaveState.made, hl])
      · refine ih.trans ?_
        simp only [SaveState.made, hl, List.map_append, List.map_singleton, hinv.idle t hrun,
          List.take_zero, btrace.placed_append, write_slots_append, btrace.placed, write_slots,
          apply_writes_nil, Function.update_eq_self]
    | @write t c i f hpc hi hf =>
      obtain ⟨k, hk, hkt⟩ := hinv.logged t c hpc
      obtain rfl := hinv.slot_of_done h0 hk hkt hpc hi
      have hat : (btrace.placed c0.toNat (s.made writes))[k]? =
          some (slotOf (c0.toNat + k), apply_writes ((writes t).take (s.written t))) := by
        simp only [btrace.getElem?_placed, SaveState.made, List.getElem?_map,
          List.getElem?_eq_getElem hk, Option.map_some']
        rw [hkt]
      show Function.update s.dumps _ (f (s.dumps _)) = _
      rw [ih, SaveState.made_write hinv.ids.once hk hkt hf, btrace.placed_set]
      exact (write_slots_set hat (hinv.later_id h0 hk hkt (hord t (by simp))) f d0).symm

/-- The invariant read as sequential saves. -/
theorem OrderedReachable.saves_eq (h0 : ValidCursor c0) {s : SaveState σ}
    (hs : OrderedReachable writes c0 d0 s) (sh : Bool) :
    btrace.saves .compare_and_swap (s.made writes) ⟨d0, c0, sh⟩ =
      some ⟨s.dumps, s.ids.current, sh⟩ := by
  have hc0 : ((c0.toNat : Nat) : Int) = c0 := Int.toNat_of_nonneg h0.1
  rw [btrace.saves_placed .compare_and_swap _ _ c0.toNat
      (by rw [hc0]; exact (Int.emod_eq_of_lt h0.1 h0.2).symm),
    ← hs.dumps_eq h0, (hs.saveReachable.saveInv h0).ids.current]
  simp [hc0]

/-- With at most `SAVE_TRACES` successful swaps no two saves share a slot, so every interleaving
is one in which no save is lapped. -/
theorem SaveReachable.ordered (h0 : ValidCursor c0) {s : SaveState σ}
    (hs : SaveReachable writes c0 d0 s) (hlen : s.ids.log.length ≤ SAVE_TRACES) :
    OrderedReachable writes c0 d0 s := by
  induction hs with
  | init => exact .init
  | @step s s' hs hstep ih =>
    refine .step (ih (le_trans hstep.log_length_le hlen)) hstep fun t _ k hk _ k' hk' hkk' hsame => ?_
    have hinv := hs.saveInv h0
    have hlen' := le_trans hstep.log_length_le hlen
    rw [hinv.ids.log k hk, hinv.ids.log k' hk'] at hsame
    simp only [Prod.mk.injEq, SAVE_TRACES_eq] at hsame hlen'
    omega

end Ordered

/-- With the compare-and-swap `next_btrace_id`, any number of concurrent saves on one store are
linearizable in the order of their successful swaps, as long as no save stores to its slot after
a save `SAVE_TRACES` or more swaps later (the next to reserve that slot) has begun storing there:
at every moment the store is what sequential saves in swap order leave, each cut to the stores it
has made. -/
theorem OrderedReachable.saves_in_swap_order {writes : Nat → List (σ → σ)} {c0 : Int}
    {d0 : Fin SAVE_TRACES → σ} (h0 : ValidCursor c0) {s : SaveState σ}
    (hs : OrderedReachable writes c0 d0 s) (sh : Bool) :
    btrace.saves .compare_and_swap (s.made writes) ⟨d0, c0, sh⟩ =
      some ⟨s.dumps, s.ids.current, sh⟩ :=
  hs.saves_eq h0 sh

/-- Eleven saves from the cursor `0`, save `t` storing `t` to its slot: saves `0` to `9` reserve
every slot, all but `9` store, save `10` reserves slot `0` again and stores, and save `9` stores
last. -/
theorem saves_in_swap_order_lap :
    ValidCursor 0 ∧ ∃ s, OrderedReachable (fun t => [fun _ => t]) 0 (fun _ => (0 : Nat)) s ∧
      s.ids.log.length = 11 ∧ s.dumps ⟨0, by decide⟩ = 10 ∧ s.dumps ⟨9, by decide⟩ = 9 ∧
      btrace.saves .compare_and_swap (s.made fun t => [fun _ => t]) ⟨fun _ => 0, 0, false⟩ =
        some ⟨s.dumps, s.ids.current, false⟩ := by
  obtain ⟨s, hrun, hlen, hd0, hd9⟩ : ∃ s, run? (SaveState.ordered_step? fun t => [fun _ => t])
      ⟨init 0, fun _ => (0 : Nat), fun _ => 0⟩
      ((List.range 10).flatMap (fun t => [t, t]) ++ List.range 9 ++ [10, 10, 10, 9]) = some s ∧
      s.ids.log.length = 11 ∧ s.dumps ⟨0, by decide⟩ = 10 ∧ s.dumps ⟨9, by decide⟩ = 9 :=
    run?_of_decide _ (by decide!)
  exact ⟨by decide, s, OrderedReachable.init.run? hrun, hlen, hd0, hd9,
    OrderedReachable.saves_in_swap_order (by decide) (OrderedReachable.init.run? hrun) false⟩

/-- With the compare-and-swap `next_btrace_id`, concurrent saves on one store are linearizable
in the order of their successful swaps: at every moment of every interleaving in which at most
`SAVE_TRACES` swaps have succeeded, the store (slots and cursor) is exactly what sequential
saves in that order leave, each save cut to the stores it has made so far. -/
theorem SaveReachable.saves_made {writes : Nat → List (σ → σ)} {c0 : Int}
    {d0 : Fin SAVE_TRACES → σ} (h0 : ValidCursor c0) {s : SaveState σ}
    (hs : SaveReachable writes c0 d0 s) (hlen : s.ids.log.length ≤ SAVE_TRACES) (sh : Bool) :
    btrace.saves .compare_and_swap (s.made writes) ⟨d0, c0, sh⟩ =
      some ⟨s.dumps, s.ids.current, sh⟩ :=
  (hs.ordered h0 hlen).saves_eq h0 sh

/-- Two saves of two stores each from the cursor `0`: `1` swaps first, the swap of `0` fails and
`0` retries, and `1` is stopped between its two stores while `0` has made both. -/
theorem saves_made_interleaved :
    ValidCursor 0 ∧ ∃ s, SaveReachable (fun t => [fun _ => t + 1, fun x => 2 * x]) 0
        (fun _ => (0 : Nat)) s ∧
      s.ids.log = [(1, 0, 1), (0, 1, 2)] ∧ s.written 0 = 2 ∧ s.written 1 = 1 ∧
      s.ids.log.length ≤ SAVE_TRACES ∧
      btrace.saves .compare_and_swap (s.made fun t => [fun _ => t + 1, fun x => 2 * x])
          ⟨fun _ => 0, 0, false⟩ =
        some ⟨s.dumps, s.ids.current, false⟩ := by
  obtain ⟨s, hrun, hlog, hw0, hw1, hlen⟩ : ∃ s,
      run? (SaveState.step? fun t => [fun _ => t + 1, fun x => 2 * x])
        ⟨init 0, fun _ => (0 : Nat), fun _ => 0⟩ [0, 1, 1, 0, 0, 0, 0, 1, 0] = some s ∧
      s.ids.log = [(1, 0, 1), (0, 1, 2)] ∧ s.written 0 = 2 ∧ s.written 1 = 1 ∧
      s.ids.log.length ≤ SAVE_TRACES :=
    ⟨_, rfl, by decide, rfl, rfl, by decide⟩
  have hs := SaveReachable.init.run? hrun
  exact ⟨by decide, s, hs, hlog, hw0, hw1, hlen, SaveReachable.saves_made (by decide) hs hlen false⟩

/-- Concurrent `save_backtrace(why)` calls of any platform in the `COMPARE_AND_SWAP` build,
invocation `t` saving `calls t`: once every save that has reserved a slot has made all its
stores, and while at most `SAVE_TRACES` have, the store is exactly what `save_backtrace` called
one after the other in the order of the swaps leaves. -/
theorem saves_concurrent (p : Platform) (calls : Nat → String × p.Walk) {c0 : Int}
    (h0 : ValidCursor c0) {d0 : Fin SAVE_TRACES → p.Slot} {s : SaveState p.Slot}
    (hs : SaveReachable (fun t => p.save_steps (calls t).1 (calls t).2) c0 d0 s)
    (hlen : s.ids.log.length ≤ SAVE_TRACES)
    (hdone : ∀ k (hk : k < s.ids.log.length),
      (p.save_steps (calls s.ids.log[k].1).1 (calls s.ids.log[k].1).2).length ≤
        s.written s.ids.log[k].1)
    (sh : Bool) :
    p.saves .compare_and_swap (s.ids.log.map fun e => calls e.1) ⟨d0, c0, sh⟩ =
      some ⟨s.dumps, s.ids.current, sh⟩ := by
  have hmade : (s.ids.log.map fun e => calls e.1).map (fun c => p.capture c.1 c.2) =
      s.made fun t => p.save_steps (calls t).1 (calls t).2 := by
    rw [List.map_map]
    refine List.map_congr_left fun e he => funext fun x => ?_
    obtain ⟨k, hk, rfl⟩ := List.getElem_of_mem he
    simp only [Function.comp, List.take_of_length_le (hdone k hk),
      Platform.apply_writes_save_steps]
  rw [Platform.saves, hmade]
  exact (hs.ordered h0 hlen).saves_eq h0 sh

/-- Two libunwind saves of one frame each from the cursor `0`: `1` swaps first, `0` retries, and
their stores alternate until both have made all of theirs. -/
theorem saves_concurrent_interleaved :
    ValidCursor 0 ∧ ∃ s, SaveReachable (fun t => Platform.libunwind.save_steps "save" [⟨"f", t⟩]) 0
        (fun _ => Platform.libunwind.zero) s ∧
      s.ids.log = [(1, 0, 1), (0, 1, 2)] ∧ s.ids.log.length ≤ SAVE_TRACES ∧
      (∀ k (hk : k < s.ids.log.length),
        (Platform.libunwind.save_steps "save" [⟨"f", s.ids.log[k].1⟩]).length ≤
          s.written s.ids.log[k].1) ∧
      Platform.libunwind.saves .compare_and_swap
          (s.ids.log.map fun e => (("save" : String), [(⟨"f", e.1⟩ : unwind.frame_info)]))
          ⟨fun _ => Platform.libunwind.zero, 0, false⟩ =
        some ⟨s.dumps, s.ids.current, false⟩ := by
  obtain ⟨s, hrun, hlog, hlen, hdone⟩ : ∃ s,
      run? (SaveState.step? fun t => Platform.libunwind.save_steps "save" [⟨"f", t⟩])
        ⟨init 0, fun _ => Platform.libunwind.zero, fun _ => 0⟩
        [0, 1, 1, 0, 0, 0, 0, 1, 0, 1, 0, 1] = some s ∧
      s.ids.log = [(1, 0, 1), (0, 1, 2)] ∧ s.ids.log.length ≤ SAVE_TRACES ∧
      ∀ k (hk : k < s.ids.log.length),
        (Platform.libunwind.save_steps "save" [⟨"f", s.ids.log[k].1⟩]).length ≤
          s.written s.ids.log[k].1 :=
    ⟨_, rfl, by decide, by decide, by decide⟩
  have hs := SaveReachable.init.run? hrun
  exact ⟨by decide, s, hs, hlog, hlen, hdone,
    saves_concurrent .libunwind (fun t => ("save", [⟨"f", t⟩])) (by decide) hs hlen hdone false⟩

end swipl.cstack.cas

namespace swipl.cstack

variable {σ : Type}

/-- With libunwind or Windows, a slot is never left with more frames than it holds: from a
store as `get_trace_store` creates it, after any run of the stores of any saves to any slots
(interleaved, two saves sharing a slot, a save stopped between two stores, with either body of
`next_btrace_id`), `print_trace` renders every slot without reading outside it. -/
theorem print_trace_between_stores (env : glibc.Env) {p : Platform} (hp : p ≠ .glibc)
    (run : List (Fin SAVE_TRACES × (p.Slot → p.Slot)))
    (hrun : ∀ e ∈ run, ∃ why w, e.2 ∈ p.save_steps why w) (c : Int) (sh : Bool)
    (i : Fin SAVE_TRACES) :
    ∃ out, p.print_trace env ⟨write_slots run fun _ => p.zero, c, sh⟩ i = .printed out := by
  cases p with
  | glibc => exact absurd rfl hp
  | libunwind =>
    have hdepth := write_slots_inv (fun s : unwind.btrace_stack => s.depth ≤ MAX_DEPTH) run
      (fun _ => unwind.btrace_stack.zero)
      (fun e he x hx => by
        obtain ⟨why, w, hmem⟩ := hrun e he
        exact unwind.save_steps_depth hmem hx)
      (fun _ => by simp [Platform.zero, unwind.btrace_stack.zero, MAX_DEPTH]) i
    obtain ⟨out, hout⟩ := unwind.print_slot_of_depth hdepth
    exact ⟨out, by simp [Platform.print_trace, Platform.zero, unwind.print_trace, btrace.get?_val,
      hout, Report.ofOption]⟩
  | windows =>
    have hdepth := write_slots_inv (fun s : windows.btrace_stack => s.depth ≤ MAX_DEPTH) run
      (fun _ => windows.btrace_stack.zero)
      (fun e he x hx => by
        obtain ⟨why, w, hmem⟩ := hrun e he
        exact windows.save_steps_depth hmem hx)
      (fun _ => by simp [Platform.zero, windows.btrace_stack.zero, MAX_DEPTH]) i
    obtain ⟨out, hout⟩ := windows.print_slot_of_depth hdepth
    exact ⟨out, by simp [Platform.print_trace, Platform.zero, windows.print_trace, btrace.get?_val,
      hout, Report.ofOption]⟩

/-- The stores of one libunwind save to slot `0`, with nothing for `dladdr` to resolve. -/
theorem print_trace_between_stores_libunwind :
    Platform.libunwind ≠ .glibc ∧
    (∀ e ∈ (unwind.save_steps "save" []).map (fun f => ((⟨0, by decide⟩ : Fin SAVE_TRACES), f)),
      ∃ why w, e.2 ∈ Platform.libunwind.save_steps why w) ∧
    ∃ out, Platform.libunwind.print_trace ⟨fun _ => none, fun _ => none, false⟩
      ⟨write_slots ((unwind.save_steps "save" []).map
          (fun f => ((⟨0, by decide⟩ : Fin SAVE_TRACES), f)))
        fun _ => Platform.libunwind.zero, 1, false⟩ ((⟨0, by decide⟩ : Fin SAVE_TRACES) : Nat) =
      .printed out := by
  have hrun : ∀ e ∈ (unwind.save_steps "save" []).map
      (fun f => ((⟨0, by decide⟩ : Fin SAVE_TRACES), f)),
      ∃ why w, e.2 ∈ Platform.libunwind.save_steps why w := by
    intro e he
    obtain ⟨f, hf, rfl⟩ := List.mem_map.mp he
    exact ⟨"save", [], hf⟩
  exact ⟨by decide, hrun, @print_trace_between_stores ⟨fun _ => none, fun _ => none, false⟩
    .libunwind (by decide) _ hrun 1 false ⟨0, by decide⟩⟩

end swipl.cstack
