import CStack.History
import CStack.Concurrent.Plain

namespace swipl.cstack

open Platform

/-- On Windows a thread's second `save_backtrace` goes to a new store: after saves labelled
`"a"` and `"b"`, `print_backtrace(1)` shows `"a"`, where the thread's one store holding both
saves shows `"b"`. -/
theorem windows_print_backtrace_misses_save (v : NextId) (env : glibc.Env) (fuel : Nat) :
    (Thread.run .windows v env fuel
        [(.save_backtrace "a" (⟨false, true, []⟩ : windows.Walk), true),
          (.save_backtrace "b" (⟨false, true, []⟩ : windows.Walk), true),
          (.print_backtrace 1, true)] ⟨true, .null⟩).2 =
      [.printed [], .printed [], .printed [.stack_trace_labeled "a"]] ∧
    (expected_run .windows v env fuel
        [(.save_backtrace "a" (⟨false, true, []⟩ : windows.Walk), true),
          (.save_backtrace "b" (⟨false, true, []⟩ : windows.Walk), true),
          (.print_backtrace 1, true)] none).2 =
      [.printed [], .printed [], .printed [.stack_trace_labeled "b"]] := by
  cases v <;> exact ⟨rfl, rfl⟩

/-- When the `malloc` of glibc's `save_backtrace` fails, the slot keeps the label and the frame
count with no array: on a thread whose store holds any saves, `print_backtrace(1)` right after
such a save faults on the first frame. -/
theorem glibc_print_backtrace_after_failed_malloc (v : NextId) (env : glibc.Env) (fuel : Nat)
    {th : Thread glibc.slot} {calls : List (String × Platform.glibc.Walk)}
    (hth : Attached .glibc v th (some calls)) (why : String) {stack : List Nat} (hstack : stack ≠ [])
    (ok₁ ok₂ : Bool) :
    (Thread.run .glibc v env fuel
        [(.save_backtrace why ((stack, false) : List Nat × Bool), ok₁), (.print_backtrace 1, ok₂)]
        th).2 = [.printed [], .fault] := by
  obtain ⟨hth₁, hout₁⟩ := Thread.call_attached env fuel (.inl (by decide)) hth ok₁
    (.save_backtrace why ((stack, false) : List Nat × Bool))
  obtain ⟨_, hout₂⟩ := Thread.call_attached env fuel (.inl (by decide)) hth₁ ok₂ (.print_backtrace 1)
  simp only [Thread.run, hout₁, hout₂]
  obtain ⟨_, bt, _, hheld⟩ := hth
  obtain ⟨i, _, bt', hsave, hslot, hlatest⟩ :=
    print_latest_after_save v (Platform.glibc.capture why (stack, false)) (held_ringHolds hheld).valid
  have hheld' :
      held .glibc v (calls ++ ([(why, (stack, false))] : List (String × Platform.glibc.Walk))) =
        some bt' := by
    rw [held_append_eq, hheld, Option.some_bind]
    exact hsave
  have hfault : glibc.print_slot env (bt'.dumps i) = none := by
    rw [hslot]
    show glibc.print_slot env (glibc.capture why stack false (bt.dumps i)) = none
    rw [glibc.capture_eq]
    exact glibc.print_slot_unreadable env rfl
      (show 0 < (stack.take glibc.BACKTRACE_FRAMES).length by
        simp [glibc.BACKTRACE_FRAMES, List.length_pos.mpr hstack]) rfl
  simp only [expected_run, Op.expected, Op.hist, touch, Option.map_some', hheld', hlatest]
  simp [Platform.print_trace, glibc.print_trace, btrace.get?_val, hfault, Report.ofOption]

theorem glibc_print_backtrace_after_failed_malloc_gc :
    Attached .glibc .compare_and_swap ⟨true, .store (btrace.shared_store glibc.slot.zero)⟩ (some []) ∧
    [1] ≠ [] ∧
    (Thread.run .glibc .compare_and_swap ⟨fun _ => none, fun _ => none, false⟩ 10
        [(.save_backtrace "gc" (([1], false) : List Nat × Bool), true), (.print_backtrace 1, true)]
        ⟨true, .store (btrace.shared_store glibc.slot.zero)⟩).2 = [.printed [], .fault] :=
  ⟨⟨rfl, _, rfl, rfl⟩, by decide,
    @glibc_print_backtrace_after_failed_malloc .compare_and_swap _ 10 _ [] ⟨rfl, _, rfl, rfl⟩ "gc"
      [1] (by decide) true true⟩

/-- `bstore_print_backtrace_named` on a cursor of `SAVE_TRACES` whose slots all lack the label
never ends. -/
theorem bstore_print_backtrace_named_diverges (p : Platform) (env : glibc.Env)
    {bt : btrace p.Slot} (hcur : bt.current = SAVE_TRACES) {why : String}
    (hnone : ∀ i, p.label (bt.dumps i) ≠ some why) (fuel : Nat) :
    p.bstore_print_backtrace_named env (some bt) why fuel = .unfinished := by
  have hscan := @named_scan_diverges (fun i => p.label (bt.dumps i) == some why)
    (fun i => by simpa using hnone i) fuel (SAVE_TRACES - 1) (by simp [SAVE_TRACES_eq]) le_rfl
  simp only [Platform.bstore_print_backtrace_named, print_named, hcur, hscan]

/-- A reader preempting glibc's `save_backtrace` in its statement `k` reads the slot being
written. -/
theorem glibc_print_backtrace_preempting (v : NextId) (env : glibc.Env) {bt : btrace glibc.slot}
    (hcur : ValidCursor bt.current) (fill : glibc.slot → glibc.slot) :
    ∃ i : Fin SAVE_TRACES, bt.get? bt.current = some (bt.dumps i) ∧
      (bt.save v fill).map (fun bt' => print_latest (glibc.print_trace env) bt' 1) =
        some (.ofOption (glibc.print_slot env (fill (bt.dumps i)))) := by
  obtain ⟨i, hi, bt', hsave, hslot, hlatest⟩ := print_latest_after_save v fill hcur
  refine ⟨i, by rw [← hi, btrace.get?_val], ?_⟩
  simp [hsave, hlatest, glibc.print_trace, btrace.get?_val, hslot]

/-- A reader that preempts `save_backtrace` may read outside a slot's frames or never end. On
glibc, `print_backtrace(1)` reads the slot being written: after `bt->sizes[current] = frames` it
reads past the old array when the new trace is longer, and after the `free` it reads the freed
array. With the plain `next_btrace_id`, a writer stopped between its increment and its test
leaves the cursor at `SAVE_TRACES`, where `bstore_print_backtrace_named` on every build never
ends when no slot has the label. -/
theorem reader_preempting_save_backtrace (v : NextId) (env : glibc.Env) {bt : btrace glibc.slot}
    (hcur : ValidCursor bt.current) {old : String} {addrs : List Nat}
    (hslot : bt.get? bt.current = some ⟨.block addrs, some old, addrs.length⟩) (why : String)
    {stack : List Nat} (hlonger : addrs.length < (stack.take glibc.BACKTRACE_FRAMES).length)
    (ok : Bool) :
    (bt.save v (glibc.capture_partial 1 why stack ok)).map
        (fun bt' => print_latest (glibc.print_trace env) bt' 1) = some .fault ∧
    (bt.save v (glibc.capture_partial 2 why stack ok)).map
        (fun bt' => print_latest (glibc.print_trace env) bt' 1) = some .fault ∧
    ∃ s, plain.Reachable ((SAVE_TRACES : Int) - 1) s ∧ s.current = SAVE_TRACES ∧
      s.pc 0 = .test ((SAVE_TRACES : Int) - 1) ∧
      ∀ (p : Platform) (bt : btrace p.Slot), bt.current = s.current →
        (∀ i, p.label (bt.dumps i) ≠ some why) →
        ∀ fuel, p.bstore_print_backtrace_named env (some bt) why fuel = .unfinished := by
  obtain ⟨i, hget, h1⟩ :=
    glibc_print_backtrace_preempting v env hcur (glibc.capture_partial 1 why stack ok)
  obtain ⟨j, hget', h2⟩ :=
    glibc_print_backtrace_preempting v env hcur (glibc.capture_partial 2 why stack ok)
  rw [hslot, Option.some_inj] at hget hget'
  have hsized : glibc.capture_partial 1 why stack ok ⟨.block addrs, some old, addrs.length⟩ =
      ⟨.block addrs, some old, (stack.take glibc.BACKTRACE_FRAMES).length⟩ := rfl
  have hfreed : glibc.capture_partial 2 why stack ok ⟨.block addrs, some old, addrs.length⟩ =
      ⟨.freed, some old, (stack.take glibc.BACKTRACE_FRAMES).length⟩ := rfl
  obtain ⟨s, hs, hcur', hpc⟩ := plain.Reachable.overshoot
  refine ⟨?_, ?_, s, hs, hcur', hpc, fun p bt hbt hnone fuel =>
    bstore_print_backtrace_named_diverges p env (hbt.trans hcur') hnone fuel⟩
  · rw [h1, ← hget, hsized, glibc.print_slot_unreadable env rfl hlonger
      (by simp [glibc.retaddr_ptr.read])]
    rfl
  · rw [h2, ← hget', hfreed, @glibc.print_slot_unreadable env
      ⟨.freed, some old, (stack.take glibc.BACKTRACE_FRAMES).length⟩ old rfl 0
      (Nat.lt_of_le_of_lt (Nat.zero_le _) hlonger) rfl]
    rfl

/-- Ten saves of one frame labelled `"old"` left every slot so and the cursor at `0`; the next
save, of two frames, is preempted. -/
theorem reader_preempting_save_backtrace_after_ten :
    ValidCursor (0 : Int) ∧
    (⟨fun _ => ⟨.block [7], some "old", 1⟩, 0, true⟩ : btrace glibc.slot).get? 0 =
      some ⟨.block [7], some "old", [7].length⟩ ∧
    [7].length < ([1, 2].take glibc.BACKTRACE_FRAMES).length ∧
    ((⟨fun _ => ⟨.block [7], some "old", 1⟩, 0, true⟩ : btrace glibc.slot).save .plain
        (glibc.capture_partial 1 "gc" [1, 2] true)).map
        (fun bt' => print_latest (glibc.print_trace ⟨fun _ => none, fun _ => none, false⟩) bt' 1) =
      some .fault ∧
    ((⟨fun _ => ⟨.block [7], some "old", 1⟩, 0, true⟩ : btrace glibc.slot).save .plain
        (glibc.capture_partial 2 "gc" [1, 2] true)).map
        (fun bt' => print_latest (glibc.print_trace ⟨fun _ => none, fun _ => none, false⟩) bt' 1) =
      some .fault ∧
    ∃ s, plain.Reachable ((SAVE_TRACES : Int) - 1) s ∧ s.current = SAVE_TRACES ∧
      s.pc 0 = .test ((SAVE_TRACES : Int) - 1) ∧
      ∀ (p : Platform) (bt : btrace p.Slot), bt.current = s.current →
        (∀ i, p.label (bt.dumps i) ≠ some "gc") →
        ∀ fuel, p.bstore_print_backtrace_named ⟨fun _ => none, fun _ => none, false⟩ (some bt) "gc"
          fuel = .unfinished :=
  ⟨by decide, rfl, by decide,
    @reader_preempting_save_backtrace .plain _ ⟨fun _ => ⟨.block [7], some "old", 1⟩, 0, true⟩
      (by decide) "old" [7] rfl "gc" [1, 2] (by decide) true⟩

end swipl.cstack
