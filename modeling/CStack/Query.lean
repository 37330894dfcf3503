import CStack.Platform

namespace swipl.cstack

open Platform

/-- In round `k` a scan from cursor `n mod SAVE_TRACES` reads the slot of save `n - 1 - k` while
there is one, and otherwise a slot no save reached. -/
theorem scan_slot_of_count {n k : Nat} (hk : k < SAVE_TRACES) :
    (k < n → scan_slot ((n : Int) % SAVE_TRACES) k = slotOf (n - 1 - k)) ∧
    (n ≤ k → n ≤ (scan_slot ((n : Int) % SAVE_TRACES) k : Nat)) := by
  have hval := scan_slot_val ((n : Int) % SAVE_TRACES) k
  refine ⟨fun hkn => Fin.ext ?_, fun hkn => ?_⟩
  · have := slotOf_val (n - 1 - k)
    simp only [SAVE_TRACES_eq] at *
    omega
  · simp only [SAVE_TRACES_eq] at *
    omega

variable {p : Platform} {v : NextId} {calls : List (String × p.Walk)} {bt : btrace p.Slot}

/-- The label the scan meets in round `k` after the saves `calls`: that of save `n - 1 - k`
while there is one, none otherwise. -/
theorem RingHolds.label_scan_slot
    (h : RingHolds p.zero (calls.map fun c => p.capture c.1 c.2) bt) {k : Nat}
    (hk : k < SAVE_TRACES) :
    p.label (bt.dumps (scan_slot bt.current k)) =
      if hkn : k < calls.length then some calls[calls.length - 1 - k].1 else none := by
  have hcur : bt.current = (calls.length : Int) % SAVE_TRACES := by simpa using h.current
  rw [hcur]
  split
  · rename_i hkn
    rw [(scan_slot_of_count hk).1 hkn]
    obtain ⟨old, hold⟩ := h.recent (calls.length - 1 - k) (by simp; omega) (by simp; omega)
    rw [hold]
    simp [label_capture]
  · rw [h.untouched _ (by simpa using (scan_slot_of_count hk).2 (by omega)), label_zero]

theorem scan_order_getElem (current : Int) {k : Nat} (hk : k < (scan_order current).length) :
    (scan_order current)[k] = scan_slot current k := by
  simp [scan_order]

/-- The scan over a ring stops at round `k` when save `n - 1 - k` is the most recent one
labelled `why`. -/
theorem RingHolds.first_hit_found
    (h : RingHolds p.zero (calls.map fun c => p.capture c.1 c.2) bt) {why : String} {k : Nat}
    (hkn : k < calls.length) (hk : k < SAVE_TRACES) (hwhy : calls[calls.length - 1 - k].1 = why)
    (hnewer : ∀ k' (hk' : k' < k), calls[calls.length - 1 - k'].1 ≠ why) :
    first_hit (fun i => p.label (bt.dumps i) == some why) (scan_order bt.current) =
      (.found (slotOf (calls.length - 1 - k)), (scan_order bt.current).take (k + 1)) := by
  have hcur : bt.current = (calls.length : Int) % SAVE_TRACES := by simpa using h.current
  have hlen : k < (scan_order bt.current).length := by rw [scan_order_length]; exact hk
  rw [swipl.cstack.first_hit_found hlen, scan_order_getElem, hcur, (scan_slot_of_count hk).1 hkn]
  · simp [scan_order_getElem, h.label_scan_slot hk, hkn, hwhy]
  · intro k' hk'
    simp [scan_order_getElem, h.label_scan_slot (by omega : k' < SAVE_TRACES),
      show k' < calls.length by omega, hnewer k' hk']

/-- The scan over a ring reads every slot when no recent save is labelled `why`. -/
theorem RingHolds.first_hit_exhausted
    (h : RingHolds p.zero (calls.map fun c => p.capture c.1 c.2) bt) {why : String}
    (hnone : ∀ k (hkn : k < calls.length), k < SAVE_TRACES → calls[calls.length - 1 - k].1 ≠ why) :
    first_hit (fun i => p.label (bt.dumps i) == some why) (scan_order bt.current) =
      (.exhausted, scan_order bt.current) := by
  apply swipl.cstack.first_hit_exhausted
  intro i hi
  obtain ⟨k, hk, rfl⟩ := List.mem_map.mp hi
  rw [List.mem_range] at hk
  rw [h.label_scan_slot hk]
  split
  · rename_i hkn
    simp [hnone k hkn hk]
  · rfl

/-- What `print_backtrace(last)` shows on the store `bt` the saves `calls` left: the cursor is
their number mod `SAVE_TRACES`, and the slot rendered is a slot of the array holding what save
`n - last + 1` wrote when `last ≤ n`, and otherwise a slot no save reached, printed as
`"No stack trace"`. -/
def RecentQuery (p : Platform) (env : glibc.Env) (calls : List (String × p.Walk)) (last : Nat)
    (bt : btrace p.Slot) : Prop :=
  0 ≤ bt.current ∧ bt.current < SAVE_TRACES ∧ bt.current = (calls.length : Int) % SAVE_TRACES ∧
    ∃ i : Fin SAVE_TRACES, ((i : Nat) : Int) = print_backtrace_index bt.current last ∧
      print_latest (p.print_trace env) bt last = p.print_trace env bt (i : Nat) ∧
      (∀ hle : 1 ≤ last ∧ last ≤ calls.length,
        (∃ old, bt.dumps i =
          p.capture calls[calls.length - last].1 calls[calls.length - last].2 old) ∧
        p.label (bt.dumps i) = some calls[calls.length - last].1) ∧
      (calls.length < last → bt.dumps i = p.zero ∧
        print_latest (p.print_trace env) bt last = .printed [.no_stack_trace])

/-- `print_backtrace(last)` on a store holding the saves `calls`. -/
theorem RingHolds.recentQuery (env : glibc.Env)
    (h : RingHolds p.zero (calls.map fun c => p.capture c.1 c.2) bt) {last : Nat}
    (hlast : 1 ≤ last ∧ last ≤ SAVE_TRACES) : RecentQuery p env calls last bt := by
  obtain ⟨i, hi, hwritten, hzero⟩ := h.print_backtrace_slot hlast
  have hlatest : print_latest (p.print_trace env) bt last = p.print_trace env bt (i : Nat) := by
    rw [print_latest, ← hi]
  refine ⟨h.valid.1, h.valid.2, by simpa using h.current, i, hi, hlatest, fun hle => ?_,
    fun hlt => ?_⟩
  · obtain ⟨old, hold⟩ := hwritten (by simpa using hle.2)
    simp only [List.getElem_map, List.length_map] at hold
    exact ⟨⟨old, hold⟩, by rw [hold, label_capture]⟩
  · have hz := hzero (by simpa using hlt)
    exact ⟨hz, by rw [hlatest, print_trace_zero env p (by rw [btrace.get?_val, hz])]⟩

/-- After `n` sequential saves on a fresh store, with either `next_btrace_id` and on every
platform, `print_backtrace(last)` for `1 ≤ last ≤ SAVE_TRACES` shows the `last`-th most recent
trace if the store still holds it, and `"No stack trace"` otherwise. -/
theorem print_backtrace_recent (p : Platform) (v : NextId) (env : glibc.Env)
    {bt : btrace p.Slot} (hfresh : bt.Fresh p.zero) (calls : List (String × p.Walk)) {last : Nat}
    (hlast : 1 ≤ last ∧ last ≤ SAVE_TRACES) :
    ∃ bt', p.saves v calls bt = some bt' ∧ RecentQuery p env calls last bt' := by
  obtain ⟨bt', hrun, hring⟩ := btrace.saves_ringHolds v hfresh (calls.map fun c => p.capture c.1 c.2)
  exact ⟨bt', hrun, hring.recentQuery env hlast⟩

/-- One save on a fresh libunwind store, read back as the most recent trace. -/
theorem print_backtrace_recent_one_save :
    (btrace.zeroed Platform.libunwind.zero).Fresh Platform.libunwind.zero ∧
      (1 ≤ 1 ∧ 1 ≤ SAVE_TRACES) ∧
      ∃ bt', Platform.libunwind.saves .plain
          ([("gc", [])] : List (String × Platform.libunwind.Walk))
          (btrace.zeroed Platform.libunwind.zero) = some bt' ∧
        RecentQuery .libunwind ⟨fun _ => none, fun _ => none, false⟩ [("gc", [])] 1 bt' :=
  ⟨⟨rfl, fun _ => rfl⟩, by decide,
    print_backtrace_recent .libunwind .plain _ ⟨rfl, fun _ => rfl⟩ _ (by decide)⟩

/-- Save `j` is the most recent of the last `SAVE_TRACES` saves labelled `why`. -/
def LatestNamed {α : Type} (calls : List (String × α)) (why : String) (j : Nat) : Prop :=
  ∃ hj : j < calls.length, calls.length ≤ j + SAVE_TRACES ∧ calls[j].1 = why ∧
    ∀ j' (hj' : j' < calls.length), j < j' → calls[j'].1 ≠ why

/-- None of the last `SAVE_TRACES` saves is labelled `why`. -/
def NoneNamed {α : Type} (calls : List (String × α)) (why : String) : Prop :=
  ∀ j (hj : j < calls.length), calls.length ≤ j + SAVE_TRACES → calls[j].1 ≠ why

/-- How `bstore_print_backtrace_named(bt, why)` runs, its scan given `fuel` rounds, on the store
`bt` the saves `calls` left: the scan ends, having read distinct slots in `scan_order`; it stops
on the slot of the most recent recent save labelled `why` and prints that trace, or, when there
is none, reads every slot and prints no trace. -/
def NamedQuery (p : Platform) (env : glibc.Env) (calls : List (String × p.Walk)) (why : String)
    (fuel : Nat) (bt : btrace p.Slot) : Prop :=
  ∃ e seen,
    named_scan (fun i => p.label (bt.dumps i) == some why) bt.current fuel (bt.current - 1) =
      some (e, seen) ∧
    seen.Nodup ∧ seen <+: scan_order bt.current ∧
    ((∃ j, LatestNamed calls why j ∧
        (∃ old, ∃ hj : j < calls.length, bt.dumps (slotOf j) = p.capture calls[j].1 calls[j].2 old) ∧
        e = .found (slotOf j) ∧ seen = (scan_order bt.current).take (calls.length - j) ∧
        p.bstore_print_backtrace_named env (some bt) why fuel =
          p.print_trace env bt (slotOf j : Nat)) ∨
      (NoneNamed calls why ∧ e = .exhausted ∧ seen = scan_order bt.current ∧
        p.bstore_print_backtrace_named env (some bt) why fuel = .printed (p.missing why)))

/-- `bstore_print_backtrace_named(bt, why)` on a store holding the saves `calls`. -/
theorem RingHolds.namedQuery (env : glibc.Env)
    (h : RingHolds p.zero (calls.map fun c => p.capture c.1 c.2) bt) (why : String) {fuel : Nat}
    (hfuel : SAVE_TRACES ≤ fuel) : NamedQuery p env calls why fuel bt := by
  classical
  have hscan := named_scan_eq_first_hit (fun i => p.label (bt.dumps i) == some why) h.valid hfuel
  have hnamed : ∀ r, named_scan (fun i => p.label (bt.dumps i) == some why) bt.current fuel
      (bt.current - 1) = some r →
      p.bstore_print_backtrace_named env (some bt) why fuel =
        match r.1 with
        | .found i => p.print_trace env bt (i : Nat)
        | .exhausted => .printed (p.missing why)
        | .out_of_bounds _ => .fault := by
    rintro ⟨e, seen⟩ hr
    simp only [bstore_print_backtrace_named, print_named, hr]
    cases e <;> rfl
  by_cases hex : ∃ k, ∃ hkn : k < calls.length, k < SAVE_TRACES ∧
      calls[calls.length - 1 - k].1 = why
  · obtain ⟨k0, ⟨hkn, hk, hwhy⟩, hmin⟩ : ∃ k0, (∃ hkn : k0 < calls.length,
        k0 < SAVE_TRACES ∧ calls[calls.length - 1 - k0].1 = why) ∧
        ∀ k' < k0, ¬ ∃ hkn : k' < calls.length, k' < SAVE_TRACES ∧
          calls[calls.length - 1 - k'].1 = why :=
      ⟨Nat.find hex, Nat.find_spec hex, fun k' hk' => Nat.find_min hex hk'⟩
    have hnewer : ∀ k' (hk' : k' < k0), calls[calls.length - 1 - k'].1 ≠ why :=
      fun k' hk' hw => hmin k' hk' ⟨by omega, by omega, hw⟩
    rw [h.first_hit_found hkn hk hwhy hnewer] at hscan
    obtain ⟨old, hold⟩ := h.recent (calls.length - 1 - k0) (by rw [List.length_map]; omega)
      (by rw [List.length_map]; omega)
    simp only [List.getElem_map] at hold
    refine ⟨_, _, hscan, (scan_order_nodup _).sublist (List.take_sublist _ _),
      List.take_prefix _ _, Or.inl ⟨calls.length - 1 - k0, ⟨by omega, by omega, hwhy,
      fun j' hj' hlt hw => ?_⟩, ⟨old, by omega, hold⟩, rfl, by congr 1; omega, hnamed _ hscan⟩⟩
    have := hnewer (calls.length - 1 - j') (by omega)
    simp only [show calls.length - 1 - (calls.length - 1 - j') = j' by omega] at this
    exact this hw
  · have hnone : ∀ k (hkn : k < calls.length), k < SAVE_TRACES →
        calls[calls.length - 1 - k].1 ≠ why := fun k hkn hk hw => hex ⟨k, hkn, hk, hw⟩
    rw [h.first_hit_exhausted hnone] at hscan
    refine ⟨_, _, hscan, scan_order_nodup _, List.prefix_refl _, Or.inr ⟨fun j hj hrecent hw => ?_,
      rfl, rfl, hnamed _ hscan⟩⟩
    have := hnone (calls.length - 1 - j) (by omega) (by omega)
    simp only [show calls.length - 1 - (calls.length - 1 - j) = j by omega] at this
    exact this hw

/-- After `n` sequential saves on a fresh store, with either `next_btrace_id` and on every
platform, `bstore_print_backtrace_named(bt, why)` ends within `SAVE_TRACES` rounds of its scan
and prints the most recent held trace labelled `why`, or none after reading every slot. -/
theorem print_backtrace_named_latest (p : Platform) (v : NextId) (env : glibc.Env)
    {bt : btrace p.Slot} (hfresh : bt.Fresh p.zero) (calls : List (String × p.Walk))
    (why : String) {fuel : Nat} (hfuel : SAVE_TRACES ≤ fuel) :
    ∃ bt', p.saves v calls bt = some bt' ∧ NamedQuery p env calls why fuel bt' := by
  obtain ⟨bt', hrun, hring⟩ := btrace.saves_ringHolds v hfresh (calls.map fun c => p.capture c.1 c.2)
  exact ⟨bt', hrun, hring.namedQuery env why hfuel⟩

/-- Two saves on a fresh glibc store, searched by the first label. -/
theorem print_backtrace_named_two_saves :
    (btrace.zeroed Platform.glibc.zero).Fresh Platform.glibc.zero ∧ SAVE_TRACES ≤ SAVE_TRACES ∧
      ∃ bt', Platform.glibc.saves .compare_and_swap
          ([("gc", ([], true)), ("crash", ([], false))] : List (String × Platform.glibc.Walk))
          (btrace.zeroed Platform.glibc.zero) = some bt' ∧
        NamedQuery .glibc ⟨fun _ => none, fun _ => none, false⟩
          [("gc", ([], true)), ("crash", ([], false))] "gc" SAVE_TRACES bt' :=
  ⟨⟨rfl, fun _ => rfl⟩, le_rfl,
    print_backtrace_named_latest .glibc .compare_and_swap _ ⟨rfl, fun _ => rfl⟩ _ _ le_rfl⟩

/-- After saves from a fresh store each slot is untouched or what one of the calls captured. -/
theorem saves_slot_origin (hfresh : bt.Fresh p.zero) {bt' : btrace p.Slot}
    (hrun : p.saves v calls bt = some bt') (i : Fin SAVE_TRACES) :
    bt'.dumps i = p.zero ∨ ∃ c ∈ calls, ∃ old, bt'.dumps i = p.capture c.1 c.2 old := by
  rcases btrace.saves_dumps v hrun i with hzero | ⟨f, hf, old, hcap⟩
  · exact .inl (hzero.trans (hfresh.2 i))
  · obtain ⟨c, hc, rfl⟩ := List.mem_map.mp hf
    exact .inr ⟨c, hc, old, hcap⟩

/-- A store that saves filled from a fresh one prints every slot when the allocations of those
captures succeeded: each slot is untouched or a capture, whose frames can all be read. -/
theorem saves_print_trace (env : glibc.Env) (hfresh : bt.Fresh p.zero) {bt' : btrace p.Slot}
    (hrun : p.saves v calls bt = some bt') (hok : ∀ c ∈ calls, p.malloc_ok c.2 = true)
    (i : Fin SAVE_TRACES) : ∃ out, p.print_trace env bt' (i : Nat) = .printed out := by
  rcases saves_slot_origin hfresh hrun i with hzero | ⟨⟨why, w⟩, hc, old, hcap⟩
  · exact ⟨_, print_trace_zero env p (by rw [btrace.get?_val, hzero])⟩
  · cases p with
    | libunwind =>
      obtain ⟨out, hout⟩ := unwind.print_slot_of_depth
        (show (unwind.capture why w old).depth ≤ MAX_DEPTH by
          rw [unwind.capture_depth]; exact_mod_cast Nat.min_le_right _ _)
      exact ⟨out, by simp [Platform.print_trace, unwind.print_trace, btrace.get?_val, hcap,
        Platform.capture, hout, Report.ofOption]⟩
    | glibc =>
      have hprintable : (glibc.capture why w.1 w.2 old).Printable := by
        rw [glibc.capture_eq, show w.2 = true from hok _ hc]
        exact ⟨_, rfl, le_rfl⟩
      obtain ⟨out, hout⟩ := glibc.print_slot_printable env hprintable
      exact ⟨out, by simp [Platform.print_trace, glibc.print_trace, btrace.get?_val, hcap,
        Platform.capture, hout, Report.ofOption]⟩
    | windows =>
      obtain ⟨out, hout⟩ := windows.print_slot_of_depth (windows.capture_depth why w old).2
      exact ⟨out, by simp [Platform.print_trace, windows.print_trace, btrace.get?_val, hcap,
        Platform.capture, hout, Report.ofOption]⟩

/-- On the libunwind and Windows builds, whose captures allocate nothing, a store after any saves
from a fresh one prints every slot without a fault: each slot is untouched or a capture, whose
depth stays within `MAX_DEPTH`. -/
theorem print_trace_no_fault (p : Platform) (hp : p ≠ .glibc) (v : NextId) (env : glibc.Env)
    {bt : btrace p.Slot} (hfresh : bt.Fresh p.zero) (calls : List (String × p.Walk)) :
    ∃ bt', p.saves v calls bt = some bt' ∧
      ∀ i : Fin SAVE_TRACES, ∃ out, p.print_trace env bt' (i : Nat) = .printed out := by
  obtain ⟨bt', hrun, -⟩ := btrace.saves_ringHolds v hfresh (calls.map fun c => p.capture c.1 c.2)
  exact ⟨bt', hrun, saves_print_trace env hfresh hrun fun c _ => malloc_ok_of_ne_glibc hp c.2⟩

/-- Two saves on a fresh Windows store. -/
theorem print_trace_no_fault_two_saves :
    Platform.windows ≠ .glibc ∧ (btrace.zeroed Platform.windows.zero).Fresh Platform.windows.zero ∧
      ∃ bt', Platform.windows.saves .plain
          ([("gc", ⟨false, true, []⟩), ("crash", ⟨true, true, []⟩)] :
            List (String × windows.Walk)) (btrace.zeroed Platform.windows.zero) = some bt' ∧
        ∀ i : Fin SAVE_TRACES, ∃ out,
          Platform.windows.print_trace ⟨fun _ => none, fun _ => none, false⟩ bt' (i : Nat) =
            .printed out :=
  ⟨by decide, ⟨rfl, fun _ => rfl⟩,
    print_trace_no_fault .windows (by decide) .plain _ ⟨rfl, fun _ => rfl⟩ _⟩

/-- On glibc, a store after saves from a fresh one prints every slot without a fault when every
`malloc` of those saves returned a block. -/
theorem print_trace_no_fault_glibc (v : NextId) (env : glibc.Env) {bt : btrace glibc.slot}
    (hfresh : bt.Fresh Platform.glibc.zero) (calls : List (String × Platform.glibc.Walk))
    (hok : ∀ c ∈ calls, c.2.2 = true) :
    ∃ bt', Platform.glibc.saves v calls bt = some bt' ∧
      ∀ i : Fin SAVE_TRACES, ∃ out, Platform.glibc.print_trace env bt' (i : Nat) = .printed out := by
  obtain ⟨bt', hrun, -⟩ := btrace.saves_ringHolds v hfresh
    (calls.map fun c => Platform.glibc.capture c.1 c.2)
  exact ⟨bt', hrun, saves_print_trace env hfresh hrun hok⟩

/-- One save on a fresh glibc store whose `malloc` succeeded. -/
theorem print_trace_no_fault_glibc_one_save :
    (btrace.zeroed Platform.glibc.zero).Fresh Platform.glibc.zero ∧
    (∀ c ∈ ([("gc", ([5], true))] : List (String × Platform.glibc.Walk)), c.2.2 = true) ∧
      ∃ bt', Platform.glibc.saves .plain
          ([("gc", ([5], true))] : List (String × Platform.glibc.Walk))
          (btrace.zeroed Platform.glibc.zero) = some bt' ∧
        ∀ i : Fin SAVE_TRACES, ∃ out,
          Platform.glibc.print_trace ⟨fun _ => none, fun _ => none, false⟩ bt' (i : Nat) =
            .printed out :=
  ⟨⟨rfl, fun _ => rfl⟩, by simp, print_trace_no_fault_glibc .plain _ ⟨rfl, fun _ => rfl⟩ _ (by simp)⟩

end swipl.cstack
