import CStack.Basic
import Mathlib.Data.List.Nodup

namespace swipl.cstack

/-- How the `for(;;)` loop of `bstore_print_backtrace_named` ends. -/
inductive ScanEnd
  /-- `print_trace(bt, me); return;` on the first slot whose label matches. -/
  | found (i : Fin SAVE_TRACES)
  /-- `break`: the decremented index came back to `bt->current-1`. -/
  | exhausted
  /-- `bt->dumps[me]` read outside the array. -/
  | out_of_bounds (me : Int)
  deriving DecidableEq, Repr

/-- `if ( me < 0 ) me += SAVE_TRACES;` at the top of the scan loop. -/
def wrap (me : Int) : Int := if me < 0 then me + SAVE_TRACES else me

/-- The `for(;;)` loop of `bstore_print_backtrace_named` from loop variable `me`, on a store whose
cursor reads `current` throughout. `hit i` is the test `bt->dumps[i].name &&
strcmp(bt->dumps[i].name, why) == 0`. It returns how the loop ends and the slots whose label it
read, in order; `none` when `fuel` rounds do not reach the end. -/
def named_scan (hit : Fin SAVE_TRACES → Bool) (current : Int) :
    Nat → Int → Option (ScanEnd × List (Fin SAVE_TRACES))
  | 0, _ => none
  | fuel + 1, me =>
    let me := wrap me
    match slotIndex? me with
    | none => some (.out_of_bounds me, [])
    | some i =>
      if hit i then some (.found i, [i])
      else if me - 1 = current - 1 then some (.exhausted, [i])
      else (named_scan hit current fuel (me - 1)).map fun r => (r.1, i :: r.2)

/-- The body shared by the three `bstore_print_backtrace_named`, its loop given `fuel` rounds:
scan for the label `why` and `print_trace` the slot found; when the scan comes back to its start
print `missing` (glibc reports `"No backtrace named %s"`, the others print nothing). -/
def print_named {σ φ : Type} (label : σ → Option String) (print_trace : btrace σ → Int → Report φ)
    (missing : List (Line φ)) (bt : Option (btrace σ)) (why : String) (fuel : Nat) : Report φ :=
  match bt with
  | none => .printed []
  | some bt =>
    match named_scan (fun i => label (bt.dumps i) == some why) bt.current fuel (bt.current - 1) with
    | some (.found i, _) => print_trace bt i
    | some (.exhausted, _) => .printed missing
    | some (.out_of_bounds _, _) => .fault
    | none => .unfinished

/-- The body shared by the three `print_backtrace(last)` once `get_trace_store(FALSE)` returned
a store. -/
def print_latest {σ φ : Type} (print_trace : btrace σ → Int → Report φ) (bt : btrace σ)
    (last : Int) : Report φ :=
  print_trace bt (print_backtrace_index bt.current last)

/-- Right after a save from a valid cursor, `print_backtrace(1)` renders the slot just written. -/
theorem print_latest_after_save {σ : Type} (v : NextId) (fill : σ → σ) {bt : btrace σ}
    (h : ValidCursor bt.current) :
    ∃ i : Fin SAVE_TRACES, (i : Int) = bt.current ∧ ∃ bt', bt.save v fill = some bt' ∧
      bt'.dumps i = fill (bt.dumps i) ∧
      ∀ {φ : Type} (print_trace : btrace σ → Int → Report φ),
        print_latest print_trace bt' 1 = print_trace bt' (i : Nat) := by
  obtain ⟨i, hi, hsave⟩ := save_valid v fill h
  refine ⟨i, hi, _, hsave, by simp, fun print_trace => ?_⟩
  unfold ValidCursor at h
  simp only [print_latest, print_backtrace_index, SAVE_TRACES_eq] at *
  congr 1
  split <;> omega

/-- Right after a save labelled `why` from a valid cursor, the named scan stops in its first round
on the slot just written. -/
theorem print_named_after_save {σ φ : Type} (v : NextId) (label : σ → Option String)
    (print_trace : btrace σ → Int → Report φ) (missing : List (Line φ)) {fill : σ → σ}
    {why : String} (hlabel : ∀ x, label (fill x) = some why) {bt : btrace σ}
    (h : ValidCursor bt.current) {fuel : Nat} (hfuel : 0 < fuel) :
    ∃ i : Fin SAVE_TRACES, (i : Int) = bt.current ∧ ∃ bt', bt.save v fill = some bt' ∧
      bt'.dumps i = fill (bt.dumps i) ∧
      print_named label print_trace missing (some bt') why fuel = print_trace bt' (i : Nat) := by
  obtain ⟨i, hi, hsave⟩ := save_valid v fill h
  refine ⟨i, hi, _, hsave, by simp, ?_⟩
  obtain ⟨fuel, rfl⟩ := Nat.exists_eq_add_of_lt hfuel
  have hwrap : wrap ((bt.current + 1) % SAVE_TRACES - 1) = (i : Nat) := by
    unfold ValidCursor at h
    simp only [wrap, SAVE_TRACES_eq] at *
    split <;> omega
  simp [print_named, named_scan, hwrap, slotIndex?_val, hlabel]

/-- The slot read in round `k` of a scan from cursor `current`: `current - 1 - k`, wrapped. -/
def scan_slot (current : Int) (k : Nat) : Fin SAVE_TRACES :=
  ⟨((current - 1 - k) % SAVE_TRACES).toNat, by simp only [SAVE_TRACES_eq]; omega⟩

/-- The order of a full scan from cursor `current`: `current-1, current-2, ...`, wrapping from
`0` to `SAVE_TRACES-1`. -/
def scan_order (current : Int) : List (Fin SAVE_TRACES) :=
  (List.range SAVE_TRACES).map (scan_slot current)

/-- The first slot of `slots` that `hit` accepts, with the slots up to it; all of `slots` and
`exhausted` when there is none. -/
def first_hit (hit : Fin SAVE_TRACES → Bool) :
    List (Fin SAVE_TRACES) → ScanEnd × List (Fin SAVE_TRACES)
  | [] => (.exhausted, [])
  | i :: rest =>
    if hit i then (.found i, [i])
    else let r := first_hit hit rest; (r.1, i :: r.2)

theorem scan_order_length (current : Int) : (scan_order current).length = SAVE_TRACES := by
  simp [scan_order]

theorem scan_order_drop {current : Int} {k : Nat} (hk : k < SAVE_TRACES) :
    (scan_order current).drop k = scan_slot current k :: (scan_order current).drop (k + 1) := by
  rw [← List.getElem_cons_drop _ k (by rw [scan_order_length]; exact hk)]
  simp [scan_order]

private theorem named_scan_round (hit : Fin SAVE_TRACES → Bool) {current : Int}
    (hcur : ValidCursor current) :
    ∀ (fuel k : Nat) (me : Int), k < SAVE_TRACES → SAVE_TRACES ≤ fuel + k →
      -1 ≤ me → me ≤ SAVE_TRACES - 2 → me % SAVE_TRACES = (current - 1 - k) % SAVE_TRACES →
      named_scan hit current fuel me = some (first_hit hit ((scan_order current).drop k)) := by
  intro fuel
  induction fuel with
  | zero => intro k me hk hfuel; omega
  | succ fuel ih =>
    intro k me hk hfuel hlo hhi hmod
    unfold ValidCursor at hcur
    have hwrap : wrap me = (current - 1 - k) % SAVE_TRACES := by
      rw [← hmod, wrap]
      simp only [SAVE_TRACES_eq] at *
      split <;> omega
    have hslot : slotIndex? (wrap me) = some (scan_slot current k) := by
      rw [slotIndex?, dif_pos (by rw [hwrap]; simp only [SAVE_TRACES_eq]; omega)]
      simp [scan_slot, hwrap]
    simp only [named_scan, hslot, scan_order_drop hk, first_hit]
    by_cases hhit : hit (scan_slot current k)
    · simp [hhit]
    · simp only [hhit, Bool.false_eq_true, if_false]
      by_cases hend : wrap me - 1 = current - 1
      · have hnil : (scan_order current).drop (k + 1) = [] := by
          apply List.drop_eq_nil_of_le
          rw [hwrap] at hend
          rw [scan_order_length]
          simp only [SAVE_TRACES_eq] at *
          omega
        simp [hend, hnil, first_hit]
      · rw [hwrap] at hend ⊢
        simp only [SAVE_TRACES_eq] at *
        rw [if_neg hend, ih (k + 1) _ (by omega) (by omega) (by omega) (by omega) (by omega)]
        rfl

/-- On a valid cursor the named scan ends within `SAVE_TRACES` rounds, and however much more
fuel it is given it reads the slots in `scan_order` until the first hit. -/
theorem named_scan_eq_first_hit (hit : Fin SAVE_TRACES → Bool) {current : Int}
    (hcur : ValidCursor current) {fuel : Nat} (hfuel : SAVE_TRACES ≤ fuel) :
    named_scan hit current fuel (current - 1) = some (first_hit hit (scan_order current)) := by
  have h := named_scan_round hit hcur fuel 0 (current - 1)
  unfold ValidCursor at hcur
  simp only [SAVE_TRACES_eq] at *
  exact h (by omega) (by omega) (by omega) (by omega) (by simp)

theorem scan_slot_val (current : Int) (k : Nat) :
    ((scan_slot current k : Nat) : Int) = (current - 1 - k) % SAVE_TRACES := by
  simp only [scan_slot, SAVE_TRACES_eq]
  omega

/-- A scan reads every slot at most once. -/
theorem scan_order_nodup (current : Int) : (scan_order current).Nodup := by
  refine List.Nodup.map_on (fun a ha b hb hab => ?_) (List.nodup_range _)
  have := congrArg (fun i : Fin SAVE_TRACES => ((i : Nat) : Int)) hab
  simp only [scan_slot_val, List.mem_range, SAVE_TRACES_eq] at this ha hb
  omega

theorem first_hit_exhausted {hit : Fin SAVE_TRACES → Bool} {l : List (Fin SAVE_TRACES)}
    (hnone : ∀ i ∈ l, hit i = false) : first_hit hit l = (.exhausted, l) := by
  induction l with
  | nil => rfl
  | cons i rest ih =>
    simp only [List.mem_cons, forall_eq_or_imp] at hnone
    simp [first_hit, hnone.1, ih hnone.2]

theorem first_hit_found {hit : Fin SAVE_TRACES → Bool} :
    ∀ {l : List (Fin SAVE_TRACES)} {k : Nat} (hk : k < l.length), hit l[k] = true →
      (∀ (k' : Nat) (hk' : k' < k), hit l[k'] = false) →
      first_hit hit l = (.found l[k], l.take (k + 1))
  | [], _, hk, _, _ => absurd hk (Nat.not_lt_zero _)
  | i :: rest, 0, _, hhit, _ => by simp_all [first_hit]
  | i :: rest, k + 1, hk, hhit, hbefore => by
    have hi := hbefore 0 (Nat.succ_pos k)
    simp only [List.getElem_cons_zero] at hi
    have hrest := @first_hit_found hit rest k (by simpa using hk) hhit
      (fun k' hk' => hbefore (k' + 1) (by omega))
    simp [first_hit, hi, hrest]

/-- With the cursor at `SAVE_TRACES`, which the plain `next_btrace_id` leaves between its
increment and its reduction, a scan that finds no label never ends: the exit test compares with
`bt->current-1`, a value the wrapped index never takes. -/
theorem named_scan_diverges {hit : Fin SAVE_TRACES → Bool} (hnone : ∀ i, hit i = false) :
    ∀ (fuel : Nat) (me : Int), -1 ≤ me → me ≤ SAVE_TRACES - 1 →
      named_scan hit SAVE_TRACES fuel me = none := by
  intro fuel
  induction fuel with
  | zero => intro me _ _; rfl
  | succ fuel ih =>
    intro me hlo hhi
    have hwrap : 0 ≤ wrap me ∧ wrap me < SAVE_TRACES := by
      rw [wrap]
      simp only [SAVE_TRACES_eq] at *
      split <;> omega
    obtain ⟨i, hi, -⟩ := slotIndex?_of_valid hwrap
    have hexit : ¬ wrap me - 1 = (SAVE_TRACES : Int) - 1 := by omega
    simp only [named_scan, hi, hnone, Bool.false_eq_true, if_false, if_neg hexit,
      ih (wrap me - 1) (by omega) (by omega), Option.map_none']

end swipl.cstack
