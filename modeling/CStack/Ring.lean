import CStack.Basic
import Mathlib.Data.List.Basic

namespace swipl.cstack

variable {σ : Type}

/-- Sequential `save_backtrace` calls on one store, the `j`-th rewriting its slot with
`fills[j]`. -/
def btrace.saves (v : NextId) : List (σ → σ) → btrace σ → Option (btrace σ)
  | [], bt => some bt
  | f :: fs, bt => (bt.save v f).bind (btrace.saves v fs)

theorem btrace.saves_append (v : NextId) (fs gs : List (σ → σ)) (bt : btrace σ) :
    bt.saves v (fs ++ gs) = (bt.saves v fs).bind (btrace.saves v gs) := by
  induction fs generalizing bt with
  | nil => rfl
  | cons f fs ih =>
    simp only [List.cons_append, btrace.saves, Option.bind_assoc]
    cases bt.save v f <;> simp [ih]

theorem btrace.save_dumps {v : NextId} {f : σ → σ} {bt bt' : btrace σ}
    (h : bt.save v f = some bt') (i : Fin SAVE_TRACES) :
    bt'.dumps i = bt.dumps i ∨ bt'.dumps i = f (bt.dumps i) := by
  simp only [btrace.save, Option.map_eq_some'] at h
  obtain ⟨j, _, rfl⟩ := h
  by_cases hij : i = j
  · subst hij
    exact .inr (Function.update_same _ _ _)
  · exact .inl (Function.update_noteq hij _ _)

/-- After saves every slot holds what it held before or what one of the fills left. -/
theorem btrace.saves_dumps (v : NextId) :
    ∀ {fs : List (σ → σ)} {bt bt' : btrace σ}, bt.saves v fs = some bt' → ∀ i,
      bt'.dumps i = bt.dumps i ∨ ∃ f ∈ fs, ∃ old, bt'.dumps i = f old
  | [], _, _, h, _ => by cases h; exact .inl rfl
  | f :: fs, bt, bt', h, i => by
    simp only [btrace.saves, Option.bind_eq_some] at h
    obtain ⟨mid, hmid, hrest⟩ := h
    rcases btrace.saves_dumps v hrest i with hi | ⟨g, hg, old, hi⟩
    · rcases btrace.save_dumps hmid i with hm | hm
      · exact .inl (hi.trans hm)
      · exact .inr ⟨f, List.mem_cons_self _ _, _, hi.trans hm⟩
    · exact .inr ⟨g, List.mem_cons_of_mem _ hg, old, hi⟩

/-- A store as `get_trace_store` creates it: cursor zero and every slot `zero`. -/
def btrace.Fresh (zero : σ) (bt : btrace σ) : Prop :=
  bt.current = 0 ∧ ∀ i, bt.dumps i = zero

/-- The store after the saves `fills` from a fresh store: the cursor is their number mod
`SAVE_TRACES`, each of the last `SAVE_TRACES` saves sits in slot `j mod SAVE_TRACES` as its fill
left it, and the slots no save reached are still `zero`. -/
structure RingHolds (zero : σ) (fills : List (σ → σ)) (bt : btrace σ) : Prop where
  current : bt.current = (fills.length : Int) % SAVE_TRACES
  recent : ∀ (j : Nat) (hj : j < fills.length), fills.length ≤ j + SAVE_TRACES →
    ∃ old, bt.dumps (slotOf j) = fills[j] old
  untouched : ∀ i : Fin SAVE_TRACES, fills.length ≤ i.val → bt.dumps i = zero

theorem RingHolds.valid {zero : σ} {fills : List (σ → σ)} {bt : btrace σ}
    (h : RingHolds zero fills bt) : ValidCursor bt.current := by
  rw [h.current]
  unfold ValidCursor
  rw [SAVE_TRACES_eq]
  omega

theorem ringHolds_fresh {zero : σ} {bt : btrace σ} (h : bt.Fresh zero) : RingHolds zero [] bt where
  current := by simp [h.1]
  recent j hj := absurd hj (Nat.not_lt_zero j)
  untouched i _ := h.2 i

/-- One more save keeps the ring picture: the new trace goes to slot `n mod SAVE_TRACES`, which
held none of the other recent ones. -/
theorem RingHolds.save {v : NextId} {zero : σ} {fills : List (σ → σ)} {f : σ → σ}
    {bt bt' : btrace σ} (h : RingHolds zero fills bt) (hsave : bt.save v f = some bt') :
    RingHolds zero (fills ++ [f]) bt' := by
  obtain ⟨i, hi, hbt⟩ := save_valid v f h.valid
  rw [hbt, Option.some_inj] at hsave
  subst hsave
  have hslot : i = slotOf fills.length := by
    apply Fin.ext
    have := slotOf_val fills.length
    rw [h.current] at hi
    omega
  subst hslot
  constructor
  · simp only [h.current, List.length_append, List.length_singleton]
    rw [SAVE_TRACES_eq]
    omega
  · intro j hj hrecent
    simp only [List.length_append, List.length_singleton] at hj hrecent
    dsimp only
    rcases Nat.lt_succ_iff_lt_or_eq.mp hj with hlt | rfl
    · obtain ⟨old, hold⟩ := h.recent j hlt (by omega)
      refine ⟨old, ?_⟩
      rw [Function.update_noteq (slotOf_ne hlt (by omega)), hold, List.getElem_append_left hlt]
    · exact ⟨bt.dumps (slotOf fills.length), by simp⟩
  · intro i hi
    simp only [List.length_append, List.length_singleton] at hi
    dsimp only
    have hne : i ≠ slotOf fills.length := by
      intro heq
      have := slotOf_of_lt (show fills.length < SAVE_TRACES by have := i.isLt; omega)
      rw [← heq] at this
      omega
    rw [Function.update_noteq hne, h.untouched i (by omega)]

/-- Every run of sequential saves on a fresh store succeeds (no slot index falls outside the
array) and leaves the ring picture. -/
theorem btrace.saves_ringHolds (v : NextId) {zero : σ} {bt : btrace σ} (hfresh : bt.Fresh zero)
    (fills : List (σ → σ)) :
    ∃ bt', bt.saves v fills = some bt' ∧ RingHolds zero fills bt' := by
  induction fills using List.reverseRecOn with
  | nil => exact ⟨bt, rfl, ringHolds_fresh hfresh⟩
  | append_singleton fs f ih =>
    obtain ⟨mid, hmid, hring⟩ := ih
    obtain ⟨i, _, hsave⟩ := save_valid v f hring.valid
    refine ⟨_, ?_, hring.save hsave⟩
    rw [btrace.saves_append, hmid]
    simp [btrace.saves, hsave]

/-- The slot `print_backtrace(last)` renders, for `1 ≤ last ≤ SAVE_TRACES`, is a slot of the
array; it holds what save `n - last` (from zero) wrote when there was one, and is still `zero`
otherwise. -/
theorem RingHolds.print_backtrace_slot {zero : σ} {fills : List (σ → σ)} {bt : btrace σ}
    (h : RingHolds zero fills bt) {last : Nat} (hlast : 1 ≤ last ∧ last ≤ SAVE_TRACES) :
    ∃ i : Fin SAVE_TRACES, ((i : Nat) : Int) = print_backtrace_index bt.current last ∧
      (∀ hle : last ≤ fills.length,
        ∃ old, bt.dumps i = fills[fills.length - last] old) ∧
      (fills.length < last → bt.dumps i = zero) := by
  have hidx := print_backtrace_index_eq h.valid
    (by omega : (1 : Int) ≤ last ∧ (last : Int) ≤ SAVE_TRACES)
  rw [h.current] at hidx ⊢
  rw [hidx]
  by_cases hle : last ≤ fills.length
  · refine ⟨slotOf (fills.length - last), ?_, fun _ => ?_, fun hlt => absurd hlt (by omega)⟩
    · rw [slotOf_val, SAVE_TRACES_eq]
      omega
    · exact h.recent _ _ (by omega)
  · have hn : fills.length < SAVE_TRACES := by omega
    refine ⟨⟨fills.length + SAVE_TRACES - last, by omega⟩, ?_, fun hle' => absurd hle' hle, ?_⟩
    · show ((fills.length + SAVE_TRACES - last : Nat) : Int) = _
      rw [SAVE_TRACES_eq] at *
      omega
    · intro _
      exact h.untouched _ (by simp; omega)

/-- The slots after the stores `run`, in order, a store `(i, f)` rewriting slot `i` with `f`. -/
def write_slots : List (Fin SAVE_TRACES × (σ → σ)) → (Fin SAVE_TRACES → σ) → Fin SAVE_TRACES → σ
  | [], d => d
  | (i, f) :: run, d => write_slots run (Function.update d i (f (d i)))

theorem write_slots_append (run more : List (Fin SAVE_TRACES × (σ → σ)))
    (d : Fin SAVE_TRACES → σ) : write_slots (run ++ more) d = write_slots more (write_slots run d) := by
  induction run generalizing d with
  | nil => rfl
  | cons e run ih => exact ih _

/-- A property of a slot that every store keeps holds of every slot after any run of stores. -/
theorem write_slots_inv (P : σ → Prop) :
    ∀ (run : List (Fin SAVE_TRACES × (σ → σ))) (d : Fin SAVE_TRACES → σ),
      (∀ e ∈ run, ∀ x, P x → P (e.2 x)) → (∀ i, P (d i)) → ∀ i, P (write_slots run d i)
  | [], _, _, hd, i => hd i
  | (j, f) :: run, d, hrun, hd, i => by
    refine write_slots_inv P run _ (fun e he => hrun e (List.mem_cons_of_mem _ he)) (fun k => ?_) i
    by_cases hk : k = j
    · subst hk
      rw [Function.update_same]
      exact hrun _ (List.mem_cons_self _ _) _ (hd k)
    · rw [Function.update_noteq hk]
      exact hd k

/-- A run whose stores to slot `i` change nothing commutes with a store to slot `i`. -/
theorem write_slots_update_comm {run : List (Fin SAVE_TRACES × (σ → σ))} {i : Fin SAVE_TRACES}
    (hid : ∀ e ∈ run, e.1 = i → e.2 = id) (d : Fin SAVE_TRACES → σ) (x : σ) :
    write_slots run (Function.update d i x) = Function.update (write_slots run d) i x := by
  induction run generalizing d with
  | nil => rfl
  | cons e run ih =>
    obtain ⟨j, g⟩ := e
    simp only [write_slots]
    rw [← ih (fun e he => hid e (List.mem_cons_of_mem _ he))]
    by_cases hj : j = i
    · subst hj
      obtain rfl : g = id := hid _ (List.mem_cons_self _ _) rfl
      simp
    · rw [Function.update_noteq hj, Function.update_comm (Ne.symm hj)]

theorem write_slots_of_id {run : List (Fin SAVE_TRACES × (σ → σ))} {i : Fin SAVE_TRACES}
    (hid : ∀ e ∈ run, e.1 = i → e.2 = id) (d : Fin SAVE_TRACES → σ) : write_slots run d i = d i := by
  have := congrFun (write_slots_update_comm hid d (d i)) i
  rwa [Function.update_eq_self, Function.update_same] at this

/-- Extending store `k` of a run by `f` extends the run's result at that slot by `f`, when no
later store to the slot changes anything. -/
theorem write_slots_set :
    ∀ {run : List (Fin SAVE_TRACES × (σ → σ))} {k : Nat} {j : Fin SAVE_TRACES} {g : σ → σ},
      run[k]? = some (j, g) → (∀ e ∈ run.drop (k + 1), e.1 = j → e.2 = id) → ∀ (f : σ → σ) d,
      write_slots (run.set k (j, f ∘ g)) d =
        Function.update (write_slots run d) j (f (write_slots run d j))
  | (j', g') :: run, 0, j, g, hk, hid, f, d => by
    simp only [List.getElem?_cons_zero, Option.some.injEq, Prod.mk.injEq] at hk
    obtain ⟨rfl, rfl⟩ := hk
    simp only [List.drop_succ_cons, List.drop_zero] at hid
    simp only [List.set_cons_zero, write_slots]
    rw [write_slots_of_id hid, Function.update_same, ← write_slots_update_comm hid,
      Function.update_idem]
    rfl
  | e :: run, k + 1, j, g, hk, hid, f, d => by
    simp only [List.set_cons_succ]
    obtain ⟨i, h⟩ := e
    exact write_slots_set (by simpa using hk) (by simpa using hid) f _

/-- Sequential saves `fills` numbered from `n` on, each with the slot it lands in. -/
def btrace.placed : Nat → List (σ → σ) → List (Fin SAVE_TRACES × (σ → σ))
  | _, [] => []
  | n, f :: fills => (slotOf n, f) :: btrace.placed (n + 1) fills

theorem btrace.getElem?_placed :
    ∀ (n : Nat) (fills : List (σ → σ)) (k : Nat),
      (btrace.placed n fills)[k]? = fills[k]?.map fun f => (slotOf (n + k), f)
  | _, [], _ => rfl
  | n, f :: fills, 0 => by simp [btrace.placed]
  | n, f :: fills, k + 1 => by
    simp only [btrace.placed, List.getElem?_cons_succ, btrace.getElem?_placed (n + 1) fills k]
    rw [Nat.add_right_comm, Nat.add_assoc]

theorem btrace.placed_append :
    ∀ (n : Nat) (fills more : List (σ → σ)),
      btrace.placed n (fills ++ more) = btrace.placed n fills ++ btrace.placed (n + fills.length) more
  | _, [], _ => rfl
  | n, f :: fills, more => by
    show (slotOf n, f) :: btrace.placed (n + 1) (fills ++ more) = _
    rw [btrace.placed_append (n + 1) fills more]
    simp only [btrace.placed, List.cons_append, List.length_cons, Nat.add_assoc, Nat.add_comm 1]

theorem btrace.placed_set :
    ∀ (n : Nat) (fills : List (σ → σ)) (k : Nat) (g : σ → σ),
      btrace.placed n (fills.set k g) = (btrace.placed n fills).set k (slotOf (n + k), g)
  | _, [], _, _ => rfl
  | n, f :: fills, 0, g => rfl
  | n, f :: fills, k + 1, g => by
    simp only [List.set_cons_succ, btrace.placed, btrace.placed_set (n + 1) fills k g]
    rw [Nat.add_right_comm, Nat.add_assoc]

/-- Sequential saves from a cursor `n mod SAVE_TRACES` leave each slot rewritten by the saves
that land in it, in order, and the cursor advanced by their number. -/
theorem btrace.saves_placed (v : NextId) :
    ∀ (fills : List (σ → σ)) (bt : btrace σ) (n : Nat), bt.current = (n : Int) % SAVE_TRACES →
      bt.saves v fills =
        some { bt with current := ((n + fills.length : Nat) : Int) % SAVE_TRACES,
                       dumps := write_slots (btrace.placed n fills) bt.dumps }
  | [], bt, n, h => by simp [btrace.saves, btrace.placed, write_slots, ← h]
  | f :: fills, bt, n, h => by
    have hvalid : ValidCursor bt.current := by
      rw [h]
      unfold ValidCursor
      rw [SAVE_TRACES_eq]
      omega
    obtain ⟨i, hi, hsave⟩ := save_valid v f hvalid
    have hslot : i = slotOf n := Fin.ext (by have := slotOf_val n; omega)
    subst hslot
    simp only [btrace.saves, hsave, Option.some_bind]
    rw [btrace.saves_placed v fills _ (n + 1) (by simp only [h, SAVE_TRACES_eq]; omega)]
    simp only [btrace.placed, write_slots, List.length_cons, Nat.add_assoc, Nat.add_comm 1]

end swipl.cstack
