import CStack.History

namespace swipl.cstack

open Platform

variable {p : Platform} {v : NextId}

/-- What a call is documented to accept. `print_backtrace(last)` takes `1..SAVE_TRACES`; a save
needs the allocations of its capture to succeed, since on glibc a failed `malloc` leaves a slot
whose frames cannot be read; the other calls take anything. -/
def Op.Sane : Op p → Prop
  | .print_backtrace last => 1 ≤ last ∧ last ≤ SAVE_TRACES
  | .save_backtrace _ w | .print_c_backtrace _ w => p.malloc_ok w = true
  | .print_backtrace_named _ | .c_backtrace_clear => True

/-- Every save a store holds had its allocations succeed. -/
def SavesOk (p : Platform) (h : Option (List (String × p.Walk))) : Prop :=
  ∀ calls ∈ h, ∀ c ∈ calls, p.malloc_ok c.2 = true

theorem held_isSome (calls : List (String × p.Walk)) : ∃ bt, held p v calls = some bt := by
  obtain ⟨bt, hrun, -⟩ := btrace.saves_ringHolds v
    (show (btrace.shared_store p.zero).Fresh p.zero from ⟨rfl, fun _ => rfl⟩)
    (calls.map fun c => p.capture c.1 c.2)
  exact ⟨bt, hrun⟩

theorem SavesOk.after_touch {h : Option (List (String × p.Walk))} (hok : SavesOk p h) (ok : Bool) :
    SavesOk p (touch ok h) := by
  cases h with
  | none => cases ok <;> simp [SavesOk, swipl.cstack.touch]
  | some calls => exact hok

theorem SavesOk.append {h : Option (List (String × p.Walk))} (hok : SavesOk p h) (ok : Bool)
    {why : String} {w : p.Walk} (hw : p.malloc_ok w = true) :
    SavesOk p ((touch ok h).map (· ++ [(why, w)])) := by
  intro calls hcalls c hc
  obtain ⟨calls₀, hcalls₀, rfl⟩ := Option.mem_map.mp hcalls
  rcases List.mem_append.mp hc with hc | hc
  · exact hok.after_touch ok calls₀ hcalls₀ c hc
  · rw [List.mem_singleton.mp hc]
    exact hw

/-- The lookup of `why` in a store holding saves whose allocations succeeded prints, within
`SAVE_TRACES` rounds of its scan. -/
theorem named_expected_printed (env : glibc.Env) {fuel : Nat} (hfuel : SAVE_TRACES ≤ fuel)
    (why : String) {h : Option (List (String × p.Walk))} (hok : SavesOk p h) :
    ∃ out, named_expected p v env fuel why h = .printed out := by
  cases h with
  | none => exact ⟨[], rfl⟩
  | some calls =>
    obtain ⟨bt, hheld⟩ := held_isSome (v := v) calls
    obtain ⟨e, seen, -, -, -, hcase⟩ := (held_ringHolds hheld).namedQuery env why hfuel
    simp only [named_expected, hheld]
    rcases hcase with ⟨j, -, -, -, -, hout⟩ | ⟨-, -, -, hout⟩
    · rw [hout]
      exact saves_print_trace env ⟨rfl, fun _ => rfl⟩ hheld (hok calls rfl) (slotOf j)
    · exact ⟨_, hout⟩

/-- What a call should report on a store holding saves whose allocations succeeded is printed,
when the call keeps to what it is documented to accept. -/
theorem Op.expected_printed (env : glibc.Env) {fuel : Nat} (hfuel : SAVE_TRACES ≤ fuel)
    (ok : Bool) {op : Op p} (hop : op.Sane) {h : Option (List (String × p.Walk))}
    (hok : SavesOk p h) : ∃ out, op.expected p v env fuel ok h = .printed out := by
  cases op with
  | save_backtrace why w => exact ⟨[], rfl⟩
  | print_backtrace last =>
    obtain ⟨n, rfl⟩ := Int.eq_ofNat_of_zero_le (by have := hop.1; omega : (0 : Int) ≤ last)
    have hn : 1 ≤ n ∧ n ≤ SAVE_TRACES := ⟨by exact_mod_cast hop.1, by exact_mod_cast hop.2⟩
    simp only [Op.expected, Op.hist]
    cases htouch : touch ok h with
    | none => exact ⟨_, rfl⟩
    | some calls =>
      obtain ⟨bt, hheld⟩ := held_isSome (v := v) calls
      obtain ⟨i, hi, -⟩ := (held_ringHolds hheld).print_backtrace_slot hn
      simp only [hheld, print_latest, ← hi]
      exact saves_print_trace env ⟨rfl, fun _ => rfl⟩ hheld ((hok.after_touch ok) calls htouch) i
  | print_backtrace_named why => exact named_expected_printed env hfuel why (hok.after_touch ok)
  | print_c_backtrace why w => exact named_expected_printed env hfuel why (hok.append ok hop)
  | c_backtrace_clear => exact ⟨[], rfl⟩

theorem Op.savesOk_hist {h : Option (List (String × p.Walk))} (hok : SavesOk p h) (ok : Bool)
    {op : Op p} (hop : op.Sane) : SavesOk p (op.hist ok h) := by
  cases op with
  | save_backtrace why w | print_c_backtrace why w => exact hok.append ok hop
  | print_backtrace _ | print_backtrace_named _ => exact hok.after_touch ok
  | c_backtrace_clear => simp [SavesOk, Op.hist]

/-- Windows captures allocate nothing. -/
theorem savesOk_windows (h : Option (List (String × windows.Walk))) : SavesOk .windows h :=
  fun _ _ _ _ => rfl

/-- `print_c_backtrace(why)` on a Windows thread that has a store fills a new store and prints
the lookup of `why` there, which finds the trace it has just captured. -/
theorem windows_print_c_backtrace_printed (env : glibc.Env) {fuel : Nat} (hfuel : 0 < fuel)
    {th : Thread windows.btrace_stack} (hld : th.has_ld = true) {bt : btrace windows.btrace_stack}
    (hbt : th.btrace_store = .store bt) (why : String) (w : windows.Walk) (ok : Bool) :
    ∃ out, (Thread.print_c_backtrace .windows v env fuel why w ok th).2 = .printed out := by
  obtain ⟨bt', hsave, hs⟩ := windows_save_backtrace_of_store v hld hbt why w ok
  cases ok
  · exact ⟨[], by simp [Thread.print_c_backtrace, hs, ptr.deref, bstore_print_backtrace_named,
      print_named]⟩
  obtain ⟨i, -, bt'', hsave', -, hnamed⟩ := print_named_after_save v Platform.windows.label
    (Platform.windows.print_trace env) (Platform.windows.missing why)
    (label_capture .windows why w) (show ValidCursor (btrace.zeroed windows.btrace_stack.zero).current
      by decide) hfuel
  obtain rfl : bt'' = bt' := Option.some_inj.mp (hsave'.symm.trans hsave)
  have hrun : Platform.windows.saves v [(why, w)] (btrace.zeroed windows.btrace_stack.zero) =
      some bt'' := by
    simpa [Platform.saves, btrace.saves] using hsave'
  simp only [Thread.print_c_backtrace, hs, if_true, ptr.deref, bstore_print_backtrace_named]
  rw [hnamed]
  exact saves_print_trace env ⟨rfl, fun _ => rfl⟩ hrun (fun _ _ => rfl) i

/-- One call on a thread with an execution context whose store holds saves whose allocations
succeeded prints, and leaves the thread so. -/
theorem Thread.call_printed (env : glibc.Env) {fuel : Nat} (hfuel : SAVE_TRACES ≤ fuel)
    {th : Thread p.Slot} {h : Option (List (String × p.Walk))} (hth : Attached p v th h)
    (hok : SavesOk p h) (ok : Bool) {op : Op p} (hop : op.Sane) :
    (∃ out, (Thread.call p v env fuel ok op th).2 = .printed out) ∧
      ∃ h', Attached p v (Thread.call p v env fuel ok op th).1 h' ∧ SavesOk p h' := by
  by_cases hp : p ≠ .windows ∨ h = none
  · obtain ⟨hth', hout⟩ := Thread.call_attached env fuel hp hth ok op
    exact ⟨hout ▸ Op.expected_printed env hfuel ok hop hok, _, hth', Op.savesOk_hist hok ok hop⟩
  simp only [not_or, not_not] at hp
  obtain ⟨rfl, hh⟩ := hp
  obtain ⟨calls, rfl⟩ := Option.ne_none_iff_exists'.mp hh
  refine ⟨?_, _, Thread.call_windows env fuel hth ok op, savesOk_windows _⟩
  obtain ⟨bt, hbt, -⟩ := hth.2
  cases op with
  | save_backtrace why w =>
    obtain ⟨_, -, hs⟩ := windows_save_backtrace_of_store v hth.1 hbt why w ok
    exact ⟨[], by simp [Thread.call, hs]⟩
  | print_backtrace last =>
    rw [Thread.call_print_backtrace, (Thread.print_backtrace_attached env fuel hth last ok).2]
    exact Op.expected_printed env hfuel ok hop hok
  | print_backtrace_named why =>
    rw [Thread.call_print_backtrace_named,
      (Thread.print_backtrace_named_attached env fuel hth why ok).2]
    exact Op.expected_printed env hfuel ok hop hok
  | print_c_backtrace why w =>
    exact windows_print_c_backtrace_printed env (by rw [SAVE_TRACES_eq] at hfuel; omega) hth.1 hbt
      why w ok
  | c_backtrace_clear =>
    exact ⟨[], by simp only [Thread.call_c_backtrace_clear, Thread.c_backtrace_clear_attached hth]⟩

/-- On every build, a sequence of calls on a thread with an execution context never faults and
never fails to end, as long as each call keeps to what it is documented to accept (on glibc, every
save's `malloc` succeeds) and the named scans run their `SAVE_TRACES` rounds: every call prints. -/
theorem Thread.run_printed (env : glibc.Env) {fuel : Nat} (hfuel : SAVE_TRACES ≤ fuel) :
    ∀ (calls : List (Op p × Bool)) {th : Thread p.Slot} {h : Option (List (String × p.Walk))},
      Attached p v th h → SavesOk p h → (∀ c ∈ calls, c.1.Sane) →
      ∀ r ∈ (Thread.run p v env fuel calls th).2, ∃ out, r = .printed out
  | [], _, _, _, _, _ => by simp [Thread.run]
  | (op, ok) :: calls, _, _, hth, hok, hsane => by
    obtain ⟨⟨out, hout⟩, h', hth', hok'⟩ :=
      Thread.call_printed env hfuel hth hok ok (hsane _ (List.mem_cons_self _ _))
    intro r hr
    simp only [Thread.run, List.mem_cons] at hr
    rcases hr with rfl | hr
    · exact ⟨out, hout⟩
    · exact Thread.run_printed env hfuel calls hth' hok'
        (fun c hc => hsane c (List.mem_cons_of_mem _ hc)) r hr

/-- A save, the most recent trace and a lookup by label on a glibc thread with no store yet. -/
theorem Thread.run_printed_glibc :
    SAVE_TRACES ≤ 10 ∧ Attached .glibc .plain ⟨true, .null⟩ none ∧ SavesOk .glibc none ∧
    (∀ c ∈ ([(.save_backtrace "gc" (([4096], true) : List Nat × Bool), true),
        (.print_backtrace 1, true), (.print_backtrace_named "gc", true)] : List (Op .glibc × Bool)),
      c.1.Sane) ∧
    ∀ r ∈ (Thread.run .glibc .plain ⟨fun _ => none, fun _ => none, false⟩ 10
        [(.save_backtrace "gc" (([4096], true) : List Nat × Bool), true),
          (.print_backtrace 1, true), (.print_backtrace_named "gc", true)] ⟨true, .null⟩).2,
      ∃ out, r = .printed out :=
  have hsane : ∀ c ∈ ([(.save_backtrace "gc" (([4096], true) : List Nat × Bool), true),
      (.print_backtrace 1, true), (.print_backtrace_named "gc", true)] : List (Op .glibc × Bool)),
      c.1.Sane := by
    simp [Op.Sane, malloc_ok, SAVE_TRACES_eq]
  ⟨by decide, ⟨rfl, rfl⟩, by simp [SavesOk], hsane,
    @Thread.run_printed .glibc .plain _ 10 (by decide) _ _ none ⟨rfl, rfl⟩ (by simp [SavesOk])
      hsane⟩

end swipl.cstack
