import CStack.Basic
import Mathlib.Data.List.Nodup

namespace swipl.cstack.cas

open swipl.cstack

/-- `next = current+1; if ( next == SAVE_TRACES ) next = 0;` -/
def next_of (current : Int) : Int :=
  if current + 1 = SAVE_TRACES then 0 else current + 1

/-- Where one invocation of the `COMPARE_AND_SWAP` body of `next_btrace_id` is. -/
inductive Pc
  /-- At the top of the `do` loop: about to read `bt->current`. -/
  | top
  /-- Read `current`; about to `COMPARE_AND_SWAP(&bt->current, current, next)`. -/
  | swap (current : Int)
  /-- Returned `current`. -/
  | done (current : Int)
  deriving DecidableEq, Repr

/-- The cursor, every invocation's position, and `log`, which is not program state: it records
each successful swap as the invocation, the id it returns and the cursor it leaves. -/
structure State where
  current : Int
  pc : Nat → Pc
  log : List (Nat × Int × Int)

/-- Every invocation at the top of its loop, the cursor at `c0`. -/
def init (c0 : Int) : State := { current := c0, pc := fun _ => .top, log := [] }

/-- One step of one invocation; any invocation may take the next step. -/
inductive Step : State → State → Prop
  /-- `current = bt->current;` -/
  | read {s : State} (t : Nat) (htop : s.pc t = .top) :
      Step s { s with pc := Function.update s.pc t (.swap s.current) }
  /-- The swap finds `bt->current == current` and stores `next`. -/
  | swap_ok {s : State} (t : Nat) {c : Int} (hpc : s.pc t = .swap c) (heq : s.current = c) :
      Step s { current := next_of c, pc := Function.update s.pc t (.done c),
               log := s.log ++ [(t, c, next_of c)] }
  /-- The swap finds another value and the loop starts again. -/
  | swap_fail {s : State} (t : Nat) {c : Int} (hpc : s.pc t = .swap c) (hne : s.current ≠ c) :
      Step s { s with pc := Function.update s.pc t .top }

/-- The states some interleaving reaches from `init c0`. -/
inductive Reachable (c0 : Int) : State → Prop
  | init : Reachable c0 (init c0)
  | step {s s' : State} : Reachable c0 s → Step s s' → Reachable c0 s'

/-- The `k`-th successful swap (from zero) returned `c0 + k` and left `c0 + k + 1`, both mod
`SAVE_TRACES`; the cursor is `c0` plus the number of swaps; the invocation of each logged swap
has returned that id; and no invocation swaps twice. -/
structure Inv (c0 : Int) (s : State) : Prop where
  current : s.current = (c0 + s.log.length) % SAVE_TRACES
  log : ∀ k (hk : k < s.log.length),
    s.log[k].2 = ((c0 + k) % SAVE_TRACES, (c0 + k + 1) % SAVE_TRACES)
  done : ∀ k (hk : k < s.log.length), s.pc s.log[k].1 = .done s.log[k].2.1
  once : (s.log.map Prod.fst).Nodup

theorem next_of_eq {c : Int} (h : ValidCursor c) : next_of c = (c + 1) % SAVE_TRACES := by
  unfold next_of
  unfold ValidCursor at h
  rw [SAVE_TRACES_eq] at *
  split <;> omega

theorem inv_init {c0 : Int} (h0 : ValidCursor c0) : Inv c0 (init c0) where
  current := by
    unfold ValidCursor at h0
    simp only [init, List.length_nil]
    rw [SAVE_TRACES_eq] at *
    omega
  log k hk := absurd hk (Nat.not_lt_zero k)
  done k hk := absurd hk (Nat.not_lt_zero k)
  once := List.nodup_nil

/-- A logged invocation has returned, so an invocation still running is not in the log. -/
theorem Inv.not_logged {c0 : Int} {s : State} (h : Inv c0 s) (t : Nat)
    (hrun : ∀ c, s.pc t ≠ .done c) : ∀ k (hk : k < s.log.length), s.log[k].1 ≠ t := by
  intro k hk heq
  exact hrun _ (heq ▸ h.done k hk)

theorem Inv.step {c0 : Int} {s s' : State} (h : Inv c0 s) (hstep : Step s s') : Inv c0 s' := by
  cases hstep with
  | read t htop =>
    have hout := h.not_logged t (by simp [htop])
    exact ⟨h.current, h.log, fun k hk => by
      simpa [Function.update_noteq (hout k hk)] using h.done k hk, h.once⟩
  | swap_ok t hpc heq =>
    have hout := h.not_logged t (by simp [hpc])
    have hvalid : ValidCursor s.current := by
      rw [h.current]; unfold ValidCursor; rw [SAVE_TRACES_eq]; omega
    have hnext : next_of s.current = (c0 + s.log.length + 1) % SAVE_TRACES := by
      rw [next_of_eq hvalid, h.current, SAVE_TRACES_eq]
      omega
    subst heq
    refine ⟨?_, fun k hk => ?_, fun k hk => ?_, ?_⟩
    · show next_of s.current = (c0 + ((s.log ++ [_]).length : Nat)) % SAVE_TRACES
      simp only [List.length_append, List.length_singleton, SAVE_TRACES_eq] at hnext ⊢
      omega
    · change k < (s.log ++ [_]).length at hk
      change (s.log ++ [(t, s.current, next_of s.current)])[k].2 = _
      simp only [List.length_append, List.length_singleton] at hk
      rcases Nat.lt_succ_iff_lt_or_eq.mp hk with hk | rfl
      · rw [List.getElem_append_left hk]
        exact h.log k hk
      · rw [List.getElem_concat_length _ _ _ rfl, hnext, h.current]
    · change k < (s.log ++ [_]).length at hk
      change Function.update s.pc t _ (s.log ++ [(t, s.current, next_of s.current)])[k].1 = _
      simp only [List.length_append, List.length_singleton] at hk
      rcases Nat.lt_succ_iff_lt_or_eq.mp hk with hk | rfl
      · rw [List.getElem_append_left hk]
        simpa [Function.update_noteq (hout k hk)] using h.done k hk
      · rw [List.getElem_concat_length _ _ _ rfl]
        simp
    · simp only [List.map_append, List.map_singleton]
      refine List.nodup_append.mpr ⟨h.once, List.nodup_singleton _, fun a ha hb => ?_⟩
      simp only [List.mem_singleton] at hb
      subst hb
      obtain ⟨k, hk, hkt⟩ := List.getElem_of_mem ha
      simp only [List.length_map, List.getElem_map] at hk hkt
      exact hout k hk hkt
  | swap_fail t hpc hne =>
    have hout := h.not_logged t (by simp [hpc])
    exact ⟨h.current, h.log, fun k hk => by
      simpa [Function.update_noteq (hout k hk)] using h.done k hk, h.once⟩

theorem Reachable.inv {c0 : Int} (h0 : ValidCursor c0) {s : State} (h : Reachable c0 s) :
    Inv c0 s := by
  induction h with
  | init => exact inv_init h0
  | step _ hstep ih => exact ih.step hstep

/-- Ids returned by at most `SAVE_TRACES` consecutive successful swaps are distinct. -/
theorem Inv.consecutive_nodup {c0 : Int} {s : State} (h : Inv c0 s) {a m : Nat}
    (hm : m ≤ SAVE_TRACES) (ham : a + m ≤ s.log.length) :
    (((s.log.drop a).take m).map fun e => e.2.1).Nodup := by
  have hids : ((s.log.drop a).take m).map (fun e => e.2.1) =
      (List.range m).map fun i => (c0 + (a + i : Nat)) % SAVE_TRACES := by
    apply List.ext_getElem (by simp; omega)
    intro i h1 h2
    simp only [List.length_map, List.length_take, List.length_drop] at h1
    simp only [List.getElem_map, List.getElem_take, List.getElem_drop, List.getElem_range]
    rw [h.log (a + i) (by omega)]
  rw [hids]
  refine List.Nodup.map_on (fun i hi j hj hij => ?_) (List.nodup_range m)
  simp only [List.mem_range] at hi hj
  simp only [SAVE_TRACES_eq] at hij hm
  omega

/-- With the compare-and-swap body, from a cursor `c0` in `[0, SAVE_TRACES)` and under any
interleaving of any number of invocations, the invocation whose swap succeeds `k`-th returns
`(c0 + k - 1) mod SAVE_TRACES` and leaves the cursor at `(c0 + k) mod SAVE_TRACES`, so at most
`SAVE_TRACES` consecutive successful swaps return distinct ids. -/
theorem next_btrace_id_swap_order {c0 : Int} (h0 : ValidCursor c0) {s : State}
    (hs : Reachable c0 s) :
    s.current = (c0 + s.log.length) % SAVE_TRACES ∧
    (∀ k (hk1 : 1 ≤ k) (hk : k ≤ s.log.length),
      s.log[k - 1].2 = ((c0 + k - 1) % SAVE_TRACES, (c0 + k) % SAVE_TRACES) ∧
      s.pc s.log[k - 1].1 = .done ((c0 + k - 1) % SAVE_TRACES)) ∧
    ∀ a m, m ≤ SAVE_TRACES → a + m ≤ s.log.length →
      (((s.log.drop a).take m).map fun e => e.2.1).Nodup := by
  have h := hs.inv h0
  refine ⟨h.current, fun k hk1 hk => ?_, fun a m hm ham => h.consecutive_nodup hm ham⟩
  have hlog := h.log (k - 1) (by omega)
  have hid : (c0 + ((k - 1 : Nat) : Int)) % SAVE_TRACES = (c0 + k - 1) % SAVE_TRACES := by
    congr 1
    omega
  have hnext : (c0 + ((k - 1 : Nat) : Int) + 1) % SAVE_TRACES = (c0 + k) % SAVE_TRACES := by
    congr 1
    omega
  refine ⟨hlog.trans (by rw [hid, hnext]), (h.done (k - 1) (by omega)).trans ?_⟩
  rw [hlog, hid]

/-- The next step of invocation `t`, which the state determines; `none` once it has returned. -/
def step? (s : State) (t : Nat) : Option State :=
  match s.pc t with
  | .top => some { s with pc := Function.update s.pc t (.swap s.current) }
  | .swap c =>
    if s.current = c then
      some { current := next_of c, pc := Function.update s.pc t (.done c),
             log := s.log ++ [(t, c, next_of c)] }
    else some { s with pc := Function.update s.pc t .top }
  | .done _ => none

theorem step?_sound {s s' : State} {t : Nat} (h : step? s t = some s') : Step s s' := by
  unfold step? at h
  split at h
  · cases h
    exact .read t ‹_›
  · split at h <;> cases h
    · exact .swap_ok t ‹_› ‹_›
    · exact .swap_fail t ‹_› ‹_›
  · cases h

theorem Reachable.run? {c0 : Int} {s s' : State} {ts : List Nat} (hs : Reachable c0 s)
    (h : run? step? s ts = some s') : Reachable c0 s' :=
  run?_induct (Reachable c0) (fun hs h => hs.step (step?_sound h)) hs h

/-- Invocations `0` and `1` both read the cursor `0`; `1` swaps first, the swap of `0` fails, and
`0` reads the cursor again and swaps. -/
theorem next_btrace_id_swap_order_retry :
    ValidCursor 0 ∧ ∃ s, Reachable 0 s ∧ s.log = [(1, 0, 1), (0, 1, 2)] ∧
      s.current = (0 + s.log.length) % SAVE_TRACES ∧
      (∀ k (hk1 : 1 ≤ k) (hk : k ≤ s.log.length),
        s.log[k - 1].2 = (((0 : Int) + k - 1) % SAVE_TRACES, ((0 : Int) + k) % SAVE_TRACES) ∧
        s.pc s.log[k - 1].1 = .done (((0 : Int) + k - 1) % SAVE_TRACES)) ∧
      ∀ a m, m ≤ SAVE_TRACES → a + m ≤ s.log.length →
        (((s.log.drop a).take m).map fun e => e.2.1).Nodup := by
  obtain ⟨s, hrun, hlog⟩ : ∃ s, run? step? (init 0) [0, 1, 1, 0, 0, 0] = some s ∧
      s.log = [(1, 0, 1), (0, 1, 2)] := ⟨_, rfl, by decide⟩
  have hs := Reachable.init.run? hrun
  exact ⟨by decide, s, hs, hlog, next_btrace_id_swap_order (by decide) hs⟩

end swipl.cstack.cas
