import CStack.Thread
import CStack.Query

namespace swipl.cstack

open Platform

variable {p : Platform} {v : NextId}

/-- The store a thread's queries should read: its saves since the store was created, made on a
fresh shared store. -/
def held (p : Platform) (v : NextId) (calls : List (String × p.Walk)) : Option (btrace p.Slot) :=
  p.saves v calls (btrace.shared_store p.zero)

/-- A store that exists after a call that may create it; `ok` is whether the `malloc` does. -/
def touch {α : Type} (ok : Bool) : Option (List α) → Option (List α)
  | none => if ok then some [] else none
  | some calls => some calls

/-- The saves since the thread's store was created (`none` while it has none) after one call. -/
def Op.hist (ok : Bool) : Op p → Option (List (String × p.Walk)) → Option (List (String × p.Walk))
  | .save_backtrace why w, h | .print_c_backtrace why w, h => (touch ok h).map (· ++ [(why, w)])
  | .print_backtrace _, h | .print_backtrace_named _, h => touch ok h
  | .c_backtrace_clear, _ => none

/-- What `bstore_print_backtrace_named` shows on the store holding `h`. -/
def named_expected (p : Platform) (v : NextId) (env : glibc.Env) (fuel : Nat) (why : String) :
    Option (List (String × p.Walk)) → Report p.Frame
  | none => p.bstore_print_backtrace_named env none why fuel
  | some calls =>
    match held p v calls with
    | some bt => p.bstore_print_backtrace_named env (some bt) why fuel
    | none => .fault

/-- What a call should report when the thread's queries read the store that holds exactly its
saves since the store was created. -/
def Op.expected (p : Platform) (v : NextId) (env : glibc.Env) (fuel : Nat) (ok : Bool) (op : Op p)
    (h : Option (List (String × p.Walk))) : Report p.Frame :=
  match op, op.hist ok h with
  | .print_backtrace _, none => .printed [.no_backtrace_store]
  | .print_backtrace last, some calls =>
    match held p v calls with
    | some bt => print_latest (p.print_trace env) bt last
    | none => .fault
  | .print_backtrace_named why, h' | .print_c_backtrace why _, h' =>
    named_expected p v env fuel why h'
  | _, _ => .printed []

/-- The reports of a sequence of calls, and the saves held after them, when the thread's queries
read the store that holds exactly its saves since the store was created. -/
def expected_run (p : Platform) (v : NextId) (env : glibc.Env) (fuel : Nat) :
    List (Op p × Bool) → Option (List (String × p.Walk)) →
      Option (List (String × p.Walk)) × List (Report p.Frame)
  | [], h => (h, [])
  | (op, ok) :: calls, h =>
    let rest := expected_run p v env fuel calls (op.hist ok h)
    (rest.1, op.expected p v env fuel ok h :: rest.2)

/-- The thread has an execution context and its store holds exactly the saves `h`. -/
def Attached (p : Platform) (v : NextId) (th : Thread p.Slot) :
    Option (List (String × p.Walk)) → Prop
  | none => th.has_ld = true ∧ th.btrace_store = .null
  | some calls => th.has_ld = true ∧ ∃ bt, th.btrace_store = .store bt ∧ held p v calls = some bt

theorem btrace.save_shared {σ : Type} {f : σ → σ} {bt bt' : btrace σ} (h : bt.save v f = some bt') :
    bt'.shared = bt.shared := by
  simp only [btrace.save, Option.map_eq_some'] at h
  obtain ⟨_, _, rfl⟩ := h
  rfl

theorem btrace.saves_shared {σ : Type} :
    ∀ {fs : List (σ → σ)} {bt bt' : btrace σ}, bt.saves v fs = some bt' → bt'.shared = bt.shared
  | [], _, _, h => by cases h; rfl
  | f :: fs, bt, bt', h => by
    simp only [btrace.saves, Option.bind_eq_some] at h
    obtain ⟨mid, hmid, hrest⟩ := h
    rw [btrace.saves_shared hrest, btrace.save_shared hmid]

theorem held_shared {calls : List (String × p.Walk)} {bt : btrace p.Slot}
    (h : held p v calls = some bt) : bt.shared = true :=
  btrace.saves_shared h

theorem held_ringHolds {calls : List (String × p.Walk)} {bt : btrace p.Slot}
    (h : held p v calls = some bt) : RingHolds p.zero (calls.map fun c => p.capture c.1 c.2) bt := by
  obtain ⟨bt₁, hrun, hring⟩ := btrace.saves_ringHolds v
    (show (btrace.shared_store p.zero).Fresh p.zero from ⟨rfl, fun _ => rfl⟩)
    (calls.map fun c => p.capture c.1 c.2)
  obtain rfl : bt₁ = bt := Option.some_inj.mp (hrun.symm.trans h)
  exact hring

theorem held_append_eq (calls : List (String × p.Walk)) (why : String) (w : p.Walk) :
    held p v (calls ++ [(why, w)]) = (held p v calls).bind (p.save_backtrace v why w) := by
  simp only [held, Platform.saves, List.map_append, btrace.saves_append]
  cases btrace.saves v _ _ <;> simp [btrace.saves, Platform.save_backtrace]

/-- One more save on the held store succeeds and holds one more trace. -/
theorem held_append {calls : List (String × p.Walk)} {bt : btrace p.Slot}
    (h : held p v calls = some bt) (why : String) (w : p.Walk) :
    ∃ bt', p.save_backtrace v why w bt = some bt' ∧ held p v (calls ++ [(why, w)]) = some bt' := by
  obtain ⟨_, _, hsave⟩ := save_valid v (p.capture why w) (held_ringHolds h).valid
  exact ⟨_, hsave, by rw [held_append_eq, h, Option.some_bind]; exact hsave⟩

theorem get_trace_store_posix (hp : p ≠ .windows) (create ok : Bool) (th : Thread p.Slot) :
    p.get_trace_store create ok th = some (get_trace_store_ld p.zero create ok th) := by
  cases p
  · rfl
  · rfl
  · exact absurd rfl hp

theorem Attached.has_ld {th : Thread p.Slot} {h : Option (List (String × p.Walk))}
    (hth : Attached p v th h) : th.has_ld = true := by
  cases h <;> exact hth.1

/-- On a thread with an execution context the libunwind and glibc `get_trace_store` returns the
thread's store, creating it if there is none; so does the Windows one while the thread has no
store, and for a query (`create` false). -/
theorem get_trace_store_attached {th : Thread p.Slot} {h : Option (List (String × p.Walk))} (create : Bool)
    (hp : p ≠ .windows ∨ h = none ∨ create = false) (hth : Attached p v th h) (ok : Bool) :
    ∃ th', p.get_trace_store create ok th = some (th', if (touch ok h).isSome then .attached else .null) ∧
      Attached p v th' (touch ok h) := by
  have hget : p.get_trace_store create ok th = some (get_trace_store_ld p.zero create ok th) := by
    cases p with
    | libunwind => rfl
    | glibc => rfl
    | windows =>
      simp only [Platform.get_trace_store, windows.get_trace_store, get_trace_store_ld, hth.has_ld,
        if_true, Option.some_inj]
      rcases hp with hp | rfl | rfl
      · exact absurd rfl hp
      · rw [hth.2]
        rfl
      · cases hs : th.btrace_store <;> rfl
  rw [hget]
  cases h with
  | none =>
    obtain ⟨hld, hnull⟩ := hth
    cases ok
    · exact ⟨th, by simp [get_trace_store_ld, hld, hnull, touch], hld, hnull⟩
    · exact ⟨{ th with btrace_store := .store (btrace.shared_store p.zero) },
        by simp [get_trace_store_ld, hld, hnull, touch], hld, _, rfl, rfl⟩
  | some calls =>
    obtain ⟨hld, bt, hbt, hheld⟩ := hth
    exact ⟨th, by simp [get_trace_store_ld, hld, hbt, touch], hld, bt, hbt, hheld⟩

theorem Thread.save_backtrace_attached {th : Thread p.Slot} {h : Option (List (String × p.Walk))}
    (hp : p ≠ .windows ∨ h = none) (hth : Attached p v th h) (why : String) (w : p.Walk)
    (ok : Bool) :
    ∃ th', Thread.save_backtrace p v why w ok th =
        some (th', if (touch ok h).isSome then .attached else .null) ∧
      Attached p v th' ((touch ok h).map (· ++ [(why, w)])) := by
  obtain ⟨th₁, hget, hth₁⟩ := get_trace_store_attached true (hp.imp_right .inl) hth ok
  simp only [Thread.save_backtrace, hget, Option.some_bind]
  cases htouch : touch ok h with
  | none =>
    rw [htouch] at hth₁
    exact ⟨th₁, rfl, hth₁⟩
  | some calls =>
    rw [htouch] at hth₁
    obtain ⟨hld, bt, hbt, hheld⟩ := hth₁
    obtain ⟨bt', hsave, hheld'⟩ := held_append hheld why w
    exact ⟨{ th₁ with btrace_store := .store bt' }, by simp [hbt, hsave], hld, bt', rfl, hheld'⟩

theorem ptr.deref_attached {th : Thread p.Slot} {calls : List (String × p.Walk)}
    (hth : Attached p v th (some calls)) :
    ∃ bt, ptr.attached.deref th = some (some bt) ∧ held p v calls = some bt := by
  obtain ⟨_, bt, hbt, hheld⟩ := hth
  exact ⟨bt, by simp [ptr.deref, hbt], hheld⟩

section Steps

variable (env : glibc.Env) (fuel : Nat) {th : Thread p.Slot} {h : Option (List (String × p.Walk))}

/-- `print_backtrace(last)` of every build reads the thread's store, creating it if there is
none. -/
theorem Thread.print_backtrace_attached (hth : Attached p v th h) (last : Int) (ok : Bool) :
    Attached p v (Thread.print_backtrace p env last ok th).1 (touch ok h) ∧
      (Thread.print_backtrace p env last ok th).2 =
        (Op.print_backtrace last).expected p v env fuel ok h := by
  obtain ⟨th', hget, hth'⟩ := get_trace_store_attached false (.inr (.inr rfl)) hth ok
  simp only [Thread.print_backtrace, hget, Op.expected, Op.hist]
  cases htouch : touch ok h with
  | none =>
    rw [htouch] at hth'
    exact ⟨hth', rfl⟩
  | some calls =>
    rw [htouch] at hth'
    obtain ⟨bt, hderef, hheld⟩ := ptr.deref_attached hth'
    simp only [Option.isSome_some, if_true, hderef, hheld]
    exact ⟨hth', trivial⟩

/-- `print_backtrace_named(why)` of every build reads the thread's store, creating it if there is
none. -/
theorem Thread.print_backtrace_named_attached (hth : Attached p v th h) (why : String) (ok : Bool) :
    Attached p v (Thread.print_backtrace_named p env fuel why ok th).1 (touch ok h) ∧
      (Thread.print_backtrace_named p env fuel why ok th).2 =
        (Op.print_backtrace_named why).expected p v env fuel ok h := by
  obtain ⟨th', hget, hth'⟩ := get_trace_store_attached false (.inr (.inr rfl)) hth ok
  simp only [Thread.print_backtrace_named, hget, Op.expected, Op.hist]
  cases htouch : touch ok h with
  | none =>
    rw [htouch] at hth'
    exact ⟨hth', rfl⟩
  | some calls =>
    rw [htouch] at hth'
    obtain ⟨bt, hderef, hheld⟩ := ptr.deref_attached hth'
    simp only [Option.isSome_some, if_true, hderef, named_expected, hheld]
    exact ⟨hth', trivial⟩

/-- `print_c_backtrace(why)` on a thread whose store `save_backtrace` fills prints the lookup of
`why` in that store and never destroys it. -/
theorem Thread.print_c_backtrace_attached (hp : p ≠ .windows ∨ h = none) (hth : Attached p v th h)
    (why : String) (w : p.Walk) (ok : Bool) :
    Attached p v (Thread.print_c_backtrace p v env fuel why w ok th).1
        ((touch ok h).map (· ++ [(why, w)])) ∧
      (Thread.print_c_backtrace p v env fuel why w ok th).2 =
        (Op.print_c_backtrace why w).expected p v env fuel ok h := by
  obtain ⟨th', hsave, hth'⟩ := Thread.save_backtrace_attached hp hth why w ok
  simp only [Thread.print_c_backtrace, hsave, Op.expected, Op.hist]
  cases htouch : touch ok h with
  | none =>
    rw [htouch] at hth'
    exact ⟨hth', rfl⟩
  | some calls =>
    rw [htouch] at hth'
    obtain ⟨bt, hderef, hheld⟩ := ptr.deref_attached hth'
    simp only [Option.isSome_some, if_true, Option.map_some', hderef, named_expected, hheld,
      Thread.release, held_shared hheld]
    exact ⟨hth', trivial⟩

theorem Thread.c_backtrace_clear_attached (hth : Attached p v th h) :
    th.c_backtrace_clear = some { th with btrace_store := .null } := by
  cases h with
  | none => simp [Thread.c_backtrace_clear, hth.1, hth.2]
  | some calls =>
    obtain ⟨hld, bt, hbt, _⟩ := hth
    simp [Thread.c_backtrace_clear, hld, hbt]

/-- Each call of the libunwind and glibc builds on a thread with an execution context keeps the
thread's store holding exactly its saves since the store was created, and reports what reading
that store shows; so does a call of the Windows build on a thread with no store. -/
theorem Thread.call_attached (hp : p ≠ .windows ∨ h = none) (hth : Attached p v th h)
    (ok : Bool) (op : Op p) :
    Attached p v (Thread.call p v env fuel ok op th).1 (op.hist ok h) ∧
      (Thread.call p v env fuel ok op th).2 = op.expected p v env fuel ok h := by
  cases op with
  | save_backtrace why w =>
    obtain ⟨th', hsave, hth'⟩ := Thread.save_backtrace_attached hp hth why w ok
    simp only [Thread.call, hsave]
    exact ⟨hth', rfl⟩
  | print_backtrace last => exact Thread.print_backtrace_attached env fuel hth last ok
  | print_backtrace_named why => exact Thread.print_backtrace_named_attached env fuel hth why ok
  | print_c_backtrace why w => exact Thread.print_c_backtrace_attached env fuel hp hth why w ok
  | c_backtrace_clear =>
    simp only [Thread.call_c_backtrace_clear, Thread.c_backtrace_clear_attached hth]
    exact ⟨⟨hth.has_ld, rfl⟩, rfl⟩

end Steps

/-- On a thread with an execution context, the libunwind and glibc builds keep through any
sequence of calls one store per thread, created on first use and shared, that holds exactly the
saves since then: every call reports what reading that store shows, and `print_c_backtrace`
never destroys it. -/
theorem Thread.run_attached (hp : p ≠ .windows) (env : glibc.Env) (fuel : Nat) :
    ∀ (calls : List (Op p × Bool)) {th : Thread p.Slot} {h : Option (List (String × p.Walk))},
      Attached p v th h →
      Attached p v (Thread.run p v env fuel calls th).1 (expected_run p v env fuel calls h).1 ∧
        (Thread.run p v env fuel calls th).2 = (expected_run p v env fuel calls h).2
  | [], _, _, hth => ⟨hth, rfl⟩
  | (op, ok) :: calls, _, _, hth => by
    obtain ⟨hth', hout⟩ := Thread.call_attached env fuel (.inl hp) hth ok op
    obtain ⟨hrest, hrest_out⟩ := Thread.run_attached hp env fuel calls hth'
    exact ⟨hrest, by simp only [Thread.run, expected_run, hout, hrest_out]⟩

/-- On every build, `print_backtrace(last)` on a thread with an execution context whose store
holds the saves `h` shows the `last`-th most recent of them, or `"No stack trace"` when there were
fewer, and `"No backtrace store?"` when the thread has no store and cannot make one. -/
theorem Thread.print_backtrace_holds_recent (env : glibc.Env) {th : Thread p.Slot}
    {h : Option (List (String × p.Walk))} (hth : Attached p v th h) {last : Nat}
    (hlast : 1 ≤ last ∧ last ≤ SAVE_TRACES) (ok : Bool) :
    (touch ok h = none →
      (Thread.print_backtrace p env last ok th).2 = .printed [.no_backtrace_store]) ∧
    ∀ saves, touch ok h = some saves →
      ∃ bt, held p v saves = some bt ∧ RecentQuery p env saves last bt ∧
        (Thread.print_backtrace p env last ok th).2 = print_latest (p.print_trace env) bt last := by
  obtain ⟨hth', hout⟩ := Thread.print_backtrace_attached env 0 hth last ok
  simp only [Op.expected, Op.hist] at hout
  refine ⟨fun hnone => by rw [hout, hnone], fun saves hsaves => ?_⟩
  rw [hsaves] at hout hth'
  obtain ⟨_, bt, _, hheld⟩ := hth'
  simp only [hheld] at hout
  exact ⟨bt, hheld, (held_ringHolds hheld).recentQuery env hlast, hout⟩

/-- `print_backtrace(2)` on a libunwind thread whose store holds saves labelled `"a"`, `"b"` and
`"c"`. -/
theorem Thread.print_backtrace_holds_recent_three_saves :
    ∃ bt, held .libunwind .plain [("a", ([] : List unwind.frame_info)), ("b", []), ("c", [])] = some bt ∧
      Attached .libunwind .plain ⟨true, .store bt⟩ (some [("a", ([] : List unwind.frame_info)), ("b", []), ("c", [])]) ∧
      (1 ≤ 2 ∧ 2 ≤ SAVE_TRACES) ∧
      (touch true (some [("a", ([] : List unwind.frame_info)), ("b", []), ("c", [])]) = none →
        (Thread.print_backtrace .libunwind ⟨fun _ => none, fun _ => none, false⟩ ((2 : Nat) : Int) true
          ⟨true, .store bt⟩).2 = .printed [.no_backtrace_store]) ∧
      ∀ saves, touch true (some [("a", ([] : List unwind.frame_info)), ("b", []), ("c", [])]) = some saves →
        ∃ bt', held .libunwind .plain saves = some bt' ∧
          RecentQuery .libunwind ⟨fun _ => none, fun _ => none, false⟩ saves 2 bt' ∧
          (Thread.print_backtrace .libunwind ⟨fun _ => none, fun _ => none, false⟩ ((2 : Nat) : Int) true
            ⟨true, .store bt⟩).2 =
            print_latest (Platform.libunwind.print_trace ⟨fun _ => none, fun _ => none, false⟩) bt' ((2 : Nat) : Int) := by
  obtain ⟨bt, hbt⟩ : ∃ bt, held .libunwind .plain [("a", ([] : List unwind.frame_info)), ("b", []), ("c", [])] = some bt := ⟨_, rfl⟩
  have hth : Attached .libunwind .plain ⟨true, .store bt⟩ (some [("a", ([] : List unwind.frame_info)), ("b", []), ("c", [])]) :=
    ⟨rfl, bt, rfl, hbt⟩
  exact ⟨bt, hbt, hth, by decide,
    @Thread.print_backtrace_holds_recent .libunwind .plain _ _ _ hth 2 (by decide) true⟩

/-- On every build, `print_backtrace_named(why)` on a thread with an execution context whose store
holds the saves `h`, its scan given at least `SAVE_TRACES` rounds, shows the most recent of the
last `SAVE_TRACES` of them labelled `why`, or no trace after reading every slot. -/
theorem Thread.print_backtrace_named_holds_latest (env : glibc.Env) {fuel : Nat}
    (hfuel : SAVE_TRACES ≤ fuel) {th : Thread p.Slot} {h : Option (List (String × p.Walk))}
    (hth : Attached p v th h) (why : String) (ok : Bool) :
    (touch ok h = none → (Thread.print_backtrace_named p env fuel why ok th).2 = .printed []) ∧
    ∀ saves, touch ok h = some saves →
      ∃ bt, held p v saves = some bt ∧ NamedQuery p env saves why fuel bt ∧
        (Thread.print_backtrace_named p env fuel why ok th).2 =
          p.bstore_print_backtrace_named env (some bt) why fuel := by
  obtain ⟨hth', hout⟩ := Thread.print_backtrace_named_attached env fuel hth why ok
  simp only [Op.expected, Op.hist] at hout
  refine ⟨fun hnone => by rw [hout, hnone]; rfl, fun saves hsaves => ?_⟩
  rw [hsaves] at hout hth'
  obtain ⟨_, bt, _, hheld⟩ := hth'
  simp only [named_expected, hheld] at hout
  exact ⟨bt, hheld, (held_ringHolds hheld).namedQuery env why hfuel, hout⟩

/-- `print_backtrace_named("gc")` on a glibc thread whose store holds saves labelled `"gc"`, `"io"`
and `"gc"`. -/
theorem Thread.print_backtrace_named_holds_latest_three_saves :
    ∃ bt, held .glibc .plain [("gc", (([4096], true) : List Nat × Bool)), ("io", ([8192], true)), ("gc", ([12288], true))] = some bt ∧
      SAVE_TRACES ≤ 10 ∧ Attached .glibc .plain ⟨true, .store bt⟩ (some [("gc", (([4096], true) : List Nat × Bool)), ("io", ([8192], true)), ("gc", ([12288], true))]) ∧
      (touch true (some [("gc", (([4096], true) : List Nat × Bool)), ("io", ([8192], true)), ("gc", ([12288], true))]) = none →
        (Thread.print_backtrace_named .glibc ⟨fun _ => none, fun _ => none, false⟩ 10 "gc" true ⟨true, .store bt⟩).2 =
          .printed []) ∧
      ∀ saves, touch true (some [("gc", (([4096], true) : List Nat × Bool)), ("io", ([8192], true)), ("gc", ([12288], true))]) = some saves →
        ∃ bt', held .glibc .plain saves = some bt' ∧
          NamedQuery .glibc ⟨fun _ => none, fun _ => none, false⟩ saves "gc" 10 bt' ∧
          (Thread.print_backtrace_named .glibc ⟨fun _ => none, fun _ => none, false⟩ 10 "gc" true ⟨true, .store bt⟩).2 =
            Platform.glibc.bstore_print_backtrace_named ⟨fun _ => none, fun _ => none, false⟩ (some bt') "gc" 10 := by
  obtain ⟨bt, hbt⟩ : ∃ bt, held .glibc .plain [("gc", (([4096], true) : List Nat × Bool)), ("io", ([8192], true)), ("gc", ([12288], true))] = some bt := ⟨_, rfl⟩
  have hth : Attached .glibc .plain ⟨true, .store bt⟩ (some [("gc", (([4096], true) : List Nat × Bool)), ("io", ([8192], true)), ("gc", ([12288], true))]) :=
    ⟨rfl, bt, rfl, hbt⟩
  exact ⟨bt, hbt, by decide, hth,
    @Thread.print_backtrace_named_holds_latest .glibc .plain _ 10 (by decide) _ _ hth "gc" true⟩

/-- On the libunwind and glibc builds, `print_c_backtrace(why)` on a thread with a store keeps the
store holding one more save and prints the trace it has just captured, found by the first round
of the named scan. -/
theorem Thread.print_c_backtrace_capture (hp : p ≠ .windows) (env : glibc.Env) {fuel : Nat}
    (hfuel : 0 < fuel) {th : Thread p.Slot} {calls : List (String × p.Walk)}
    (hth : Attached p v th (some calls)) (why : String) (w : p.Walk) (ok : Bool) :
    ∃ bt', ∃ i : Fin SAVE_TRACES, held p v (calls ++ [(why, w)]) = some bt' ∧
      (∃ old, bt'.dumps i = p.capture why w old) ∧
      Attached p v (Thread.print_c_backtrace p v env fuel why w ok th).1
        (some (calls ++ [(why, w)])) ∧
      (Thread.print_c_backtrace p v env fuel why w ok th).2 = p.print_trace env bt' (i : Nat) := by
  obtain ⟨hth', hout⟩ := Thread.call_attached env fuel (.inl hp) hth ok (.print_c_backtrace why w)
  obtain ⟨_, bt, _, hheld⟩ := hth
  obtain ⟨i, _, bt', hsave, hslot, hnamed⟩ := print_named_after_save v p.label (p.print_trace env)
    (p.missing why) (label_capture p why w) (held_ringHolds hheld).valid hfuel
  have hheld' : held p v (calls ++ [(why, w)]) = some bt' := by
    rw [held_append_eq, hheld, Option.some_bind]
    exact hsave
  refine ⟨bt', i, hheld', ⟨_, hslot⟩, hth', ?_⟩
  refine hout.trans ?_
  simp only [Op.expected, Op.hist, touch, Option.map_some', named_expected, hheld']
  exact hnamed

/-- A save and a query on a libunwind thread whose store does not exist yet. -/
theorem Thread.run_attached_save_print :
    Platform.libunwind ≠ .windows ∧ Attached .libunwind .plain ⟨true, .null⟩ none ∧
    Attached .libunwind .plain
        (Thread.run .libunwind .plain ⟨fun _ => none, fun _ => none, false⟩ 10
          [(.save_backtrace "gc" ([] : List unwind.frame_info), true), (.print_backtrace 1, true)]
          ⟨true, .null⟩).1
        (expected_run .libunwind .plain ⟨fun _ => none, fun _ => none, false⟩ 10
          [(.save_backtrace "gc" ([] : List unwind.frame_info), true), (.print_backtrace 1, true)]
          none).1 ∧
      (Thread.run .libunwind .plain ⟨fun _ => none, fun _ => none, false⟩ 10
          [(.save_backtrace "gc" ([] : List unwind.frame_info), true), (.print_backtrace 1, true)]
          ⟨true, .null⟩).2 =
        (expected_run .libunwind .plain ⟨fun _ => none, fun _ => none, false⟩ 10
          [(.save_backtrace "gc" ([] : List unwind.frame_info), true), (.print_backtrace 1, true)]
          none).2 :=
  ⟨by decide, ⟨rfl, rfl⟩, Thread.run_attached (by decide) _ 10 _ ⟨rfl, rfl⟩⟩

/-- On Windows, once the thread has a store, `get_trace_store(create)` returns a new store when
`create` holds and the thread's store otherwise, leaving the thread as it is. -/
theorem windows_get_trace_store_of_store {th : Thread windows.btrace_stack}
    (hld : th.has_ld = true) {bt : btrace windows.btrace_stack} (hbt : th.btrace_store = .store bt)
    (create ok : Bool) :
    Platform.windows.get_trace_store create ok th =
      some (if create then (th, if ok then .fresh (btrace.zeroed windows.btrace_stack.zero)
        else .null) else (th, .attached)) := by
  simp [Platform.get_trace_store, windows.get_trace_store, hld, hbt]

theorem windows_save_backtrace_of_store (v : NextId) {th : Thread windows.btrace_stack}
    (hld : th.has_ld = true) {bt : btrace windows.btrace_stack} (hbt : th.btrace_store = .store bt)
    (why : String) (w : windows.Walk) (ok : Bool) :
    ∃ bt', Platform.save_backtrace .windows v why w (btrace.zeroed windows.btrace_stack.zero) =
        some bt' ∧
      Thread.save_backtrace .windows v why w ok th = some (th, if ok then .fresh bt' else .null) := by
  obtain ⟨_, _, hs⟩ := @save_valid _ v (Platform.windows.capture why w)
    (btrace.zeroed windows.btrace_stack.zero) (show ValidCursor 0 by decide)
  obtain ⟨bt', hs'⟩ : ∃ bt', Platform.save_backtrace .windows v why w
      (btrace.zeroed windows.btrace_stack.zero) = some bt' := ⟨_, hs⟩
  refine ⟨bt', hs', ?_⟩
  cases ok <;> simp [Thread.save_backtrace, windows_get_trace_store_of_store hld hbt, hs']

/-- The saves a Windows thread's store holds after one call. While the thread has no store the
call acts as on the other builds; once it has one, a save fills a new store, so only
`c_backtrace_clear` changes what the thread's store holds. -/
def Op.windows_hist (ok : Bool) (op : Op .windows) :
    Option (List (String × windows.Walk)) → Option (List (String × windows.Walk))
  | none => op.hist ok none
  | some calls =>
    match op with
    | .c_backtrace_clear => none
    | _ => some calls

/-- The saves a Windows thread's store holds after a sequence of calls. -/
def windows_hist_run :
    List (Op .windows × Bool) → Option (List (String × windows.Walk)) →
      Option (List (String × windows.Walk))
  | [], h => h
  | (op, ok) :: calls, h => windows_hist_run calls (op.windows_hist ok h)

theorem windows_hist_at_most_one {h : Option (List (String × windows.Walk))}
    (hone : ∀ c ∈ h, c.length ≤ 1) (ok : Bool) (op : Op .windows) :
    ∀ c ∈ op.windows_hist ok h, c.length ≤ 1 := by
  cases h with
  | none => cases op <;> cases ok <;> simp [Op.windows_hist, Op.hist, touch]
  | some calls => cases op <;> first | exact hone | simp [Op.windows_hist]

/-- Each call of the Windows build on a thread with an execution context keeps the thread's
store holding what `Op.windows_hist` says. -/
theorem Thread.call_windows (env : glibc.Env) (fuel : Nat) {th : Thread windows.btrace_stack}
    {h : Option (List (String × windows.Walk))} (hth : Attached .windows v th h) (ok : Bool)
    (op : Op .windows) :
    Attached .windows v (Thread.call .windows v env fuel ok op th).1 (op.windows_hist ok h) := by
  cases h with
  | none => exact (Thread.call_attached env fuel (.inr rfl) hth ok op).1
  | some calls =>
    obtain ⟨bt, hbt, -⟩ := hth.2
    cases op with
    | save_backtrace why w =>
      obtain ⟨_, -, hs⟩ := windows_save_backtrace_of_store v hth.1 hbt why w ok
      simpa [Thread.call, hs, Op.windows_hist] using hth
    | print_backtrace last => exact (Thread.print_backtrace_attached env fuel hth last ok).1
    | print_backtrace_named why =>
      exact (Thread.print_backtrace_named_attached env fuel hth why ok).1
    | print_c_backtrace why w =>
      obtain ⟨_, -, hs⟩ := windows_save_backtrace_of_store v hth.1 hbt why w ok
      cases ok <;> simpa [Thread.call, Thread.print_c_backtrace, hs, ptr.deref, Thread.release,
        Op.windows_hist] using hth
    | c_backtrace_clear =>
      simp only [Thread.call_c_backtrace_clear, Thread.c_backtrace_clear_attached hth]
      exact ⟨hth.has_ld, rfl⟩

/-- On Windows, through any sequence of calls on a thread with an execution context, the thread's
store holds the saves `windows_hist_run` computes, and so never more than one: the save that
created it. Every later `save_backtrace` fills a store that the thread's queries never read. -/
theorem Thread.run_windows (env : glibc.Env) (fuel : Nat) :
    ∀ (calls : List (Op .windows × Bool)) {th : Thread windows.btrace_stack}
      {h : Option (List (String × windows.Walk))}, Attached .windows v th h →
      (∀ c ∈ h, c.length ≤ 1) →
      Attached .windows v (Thread.run .windows v env fuel calls th).1 (windows_hist_run calls h) ∧
        ∀ c ∈ windows_hist_run calls h, c.length ≤ 1
  | [], _, _, hth, hone => ⟨hth, hone⟩
  | (op, ok) :: calls, _, _, hth, hone =>
    Thread.run_windows env fuel calls (Thread.call_windows env fuel hth ok op)
      (windows_hist_at_most_one hone ok op)

/-- Three saves on a Windows thread that has no store yet: the store keeps only the first. -/
theorem Thread.run_windows_three_saves :
    Attached .windows .compare_and_swap ⟨true, .null⟩ none ∧
    (∀ c ∈ (none : Option (List (String × windows.Walk))), c.length ≤ 1) ∧
    Attached .windows .compare_and_swap
        (Thread.run .windows .compare_and_swap ⟨fun _ => none, fun _ => none, false⟩ 10
          [(.save_backtrace "a" (⟨false, true, []⟩ : windows.Walk), true),
            (.save_backtrace "b" (⟨false, true, []⟩ : windows.Walk), true),
            (.save_backtrace "c" (⟨false, true, []⟩ : windows.Walk), true)] ⟨true, .null⟩).1
        (windows_hist_run
          [(.save_backtrace "a" (⟨false, true, []⟩ : windows.Walk), true),
            (.save_backtrace "b" (⟨false, true, []⟩ : windows.Walk), true),
            (.save_backtrace "c" (⟨false, true, []⟩ : windows.Walk), true)] none) ∧
      ∀ c ∈ windows_hist_run
          [(.save_backtrace "a" (⟨false, true, []⟩ : windows.Walk), true),
            (.save_backtrace "b" (⟨false, true, []⟩ : windows.Walk), true),
            (.save_backtrace "c" (⟨false, true, []⟩ : windows.Walk), true)] none, c.length ≤ 1 :=
  ⟨⟨rfl, rfl⟩, by simp, Thread.run_windows _ 10 _ ⟨rfl, rfl⟩ (by simp)⟩

/-- The store of the run above holds the save labelled `"a"` only. -/
example : windows_hist_run
    [(.save_backtrace "a" (⟨false, true, []⟩ : windows.Walk), true),
      (.save_backtrace "b" (⟨false, true, []⟩ : windows.Walk), true),
      (.save_backtrace "c" (⟨false, true, []⟩ : windows.Walk), true)] none =
    some [("a", ⟨false, true, []⟩)] := rfl

end swipl.cstack
