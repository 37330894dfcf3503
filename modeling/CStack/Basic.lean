import Mathlib.Logic.Function.Basic
import Mathlib.Order.Basic

namespace swipl.cstack

/-- `SAVE_TRACES`: the number of slots in a trace store. -/
def SAVE_TRACES : Nat := 10

/-- `MAX_DEPTH`: the frames kept per trace by the libunwind and Windows stores. -/
def MAX_DEPTH : Nat := 10

theorem SAVE_TRACES_eq : SAVE_TRACES = 10 := rfl

theorem MAX_DEPTH_eq : MAX_DEPTH = 10 := rfl

/-- The two bodies of `next_btrace_id`, selected by `#ifdef COMPARE_AND_SWAP`. -/
inductive NextId
  | compare_and_swap
  | plain
  deriving DecidableEq, Repr

/-- `next_btrace_id(bt)` run without interference, on the value of `bt->current`: the id it
returns and the value it leaves in `bt->current`. Alone, the compare-and-swap loop succeeds on
its first round. C's `%` truncates, which is `Int.tmod`. -/
def next_btrace_id : NextId → Int → Int × Int
  | .compare_and_swap, current =>
    let next := current + 1
    (current, if next = SAVE_TRACES then 0 else next)
  | .plain, current =>
    let bumped := current + 1
    (current.tmod SAVE_TRACES,
      if bumped ≥ SAVE_TRACES then bumped.tmod SAVE_TRACES else bumped)

/-- A cursor that names a slot. -/
def ValidCursor (current : Int) : Prop := 0 ≤ current ∧ current < SAVE_TRACES

instance (current : Int) : Decidable (ValidCursor current) :=
  inferInstanceAs (Decidable (_ ∧ _))

/-- On a valid cursor both bodies return the cursor and advance it by one, wrapping at
`SAVE_TRACES`. -/
theorem next_btrace_id_of_valid (v : NextId) {current : Int} (h : ValidCursor current) :
    next_btrace_id v current = (current, (current + 1) % SAVE_TRACES) := by
  obtain ⟨hlo, hhi⟩ := h
  cases v with
  | compare_and_swap =>
    simp only [next_btrace_id, Prod.mk.injEq, true_and]
    rw [SAVE_TRACES_eq] at *
    split <;> omega
  | plain =>
    simp only [next_btrace_id, Prod.mk.injEq]
    rw [Int.tmod_eq_emod hlo (by omega), Int.emod_eq_of_lt hlo hhi]
    refine ⟨rfl, ?_⟩
    split
    · exact Int.tmod_eq_emod (by omega) (by omega)
    · rw [SAVE_TRACES_eq] at *
      omega

/-- `bt->dumps[me]` is inside the array: the slot index of an `int`. -/
def slotIndex? (me : Int) : Option (Fin SAVE_TRACES) :=
  if h : 0 ≤ me ∧ me < SAVE_TRACES then some ⟨me.toNat, by omega⟩ else none

theorem slotIndex?_of_valid {me : Int} (h : ValidCursor me) :
    ∃ i : Fin SAVE_TRACES, slotIndex? me = some i ∧ (i : Int) = me :=
  ⟨⟨me.toNat, by unfold ValidCursor at h; omega⟩, dif_pos h, Int.toNat_of_nonneg h.1⟩

theorem slotIndex?_val (i : Fin SAVE_TRACES) : slotIndex? ((i : Nat) : Int) = some i := by
  obtain ⟨j, hj, hval⟩ := slotIndex?_of_valid
    (show ValidCursor ((i : Nat) : Int) by unfold ValidCursor; have := i.isLt; omega)
  rw [hj, show j = i from Fin.ext (by omega)]

theorem slotIndex?_eq_some {me : Int} {i : Fin SAVE_TRACES} (h : slotIndex? me = some i) :
    (i : Int) = me := by
  unfold slotIndex? at h
  split at h
  · cases h
    exact Int.toNat_of_nonneg (by omega)
  · cases h

/-- Slot `j mod SAVE_TRACES`, where sequential save number `j` (from zero) lands. -/
def slotOf (j : Nat) : Fin SAVE_TRACES := ⟨j % SAVE_TRACES, Nat.mod_lt _ (by decide)⟩

theorem slotOf_val (j : Nat) : ((slotOf j : Nat) : Int) = (j : Int) % SAVE_TRACES := by
  simp [slotOf]

theorem slotOf_of_lt {j : Nat} (h : j < SAVE_TRACES) : (slotOf j : Nat) = j :=
  Nat.mod_eq_of_lt h

/-- Two saves fewer than `SAVE_TRACES` apart land in different slots. -/
theorem slotOf_ne {j k : Nat} (hjk : j < k) (hk : k < j + SAVE_TRACES) : slotOf j ≠ slotOf k := by
  intro h
  have := congrArg Fin.val h
  simp only [slotOf, SAVE_TRACES_eq] at this hk
  omega

/-- The `Sdprintf` lines of the store's reports; `φ` is a platform's frame line. -/
inductive Line (φ : Type)
  /-- `"C-stack trace labeled \"%s\":\n"` (libunwind and glibc). -/
  | c_stack_trace_labeled (why : String)
  /-- `"Stack trace labeled \"%s\":\n"` (Windows). -/
  | stack_trace_labeled (why : String)
  /-- One frame of a rendered trace. -/
  | frame (f : φ)
  /-- `"No stack trace\n"`. -/
  | no_stack_trace
  /-- `"No backtrace store?\n"`. -/
  | no_backtrace_store
  /-- `"No backtrace named %s\n"` (glibc). -/
  | no_backtrace_named (why : String)
  deriving DecidableEq, Repr

/-- How a report ends when its loops get a bound on their rounds: the lines it printed, a read
outside the memory it may read (`fault`), or no end within the bound (`unfinished`). -/
inductive Report (φ : Type)
  | printed (out : List (Line φ))
  | fault
  | unfinished
  deriving DecidableEq, Repr

/-- A report whose only failure is a fault. -/
def Report.ofOption {φ : Type} : Option (List (Line φ)) → Report φ
  | some out => .printed out
  | none => .fault

theorem mapM_eq_some_map {α β : Type} {f : α → Option β} (g : α → β) :
    ∀ {l : List α}, (∀ a ∈ l, f a = some (g a)) → l.mapM f = some (l.map g)
  | [], _ => rfl
  | a :: l, h => by
    simp only [List.mem_cons, forall_eq_or_imp] at h
    rw [List.mapM_cons, h.1, mapM_eq_some_map g h.2]
    rfl

theorem mapM_eq_none {α β : Type} {f : α → Option β} :
    ∀ {l : List α} {a : α}, a ∈ l → f a = none → l.mapM f = none
  | b :: l, a, hmem, hnone => by
    rw [List.mapM_cons]
    rcases List.mem_cons.mp hmem with rfl | hmem
    · rw [hnone]
      rfl
    · rw [mapM_eq_none hmem hnone]
      cases f b <;> rfl

/-- A trace store of any platform: `SAVE_TRACES` slots of type `σ`, the cursor `current` (the
next slot to fill) and `shared` (owned by the thread's engine). The glibc store keeps its
three per-slot arrays as one array of slot records. -/
structure btrace (σ : Type) where
  dumps : Fin SAVE_TRACES → σ
  current : Int
  shared : Bool

variable {σ : Type}

/-- A store as `memset(s, 0, sizeof(*s))` leaves it, every slot being `zero`. -/
def btrace.zeroed (zero : σ) : btrace σ :=
  { dumps := fun _ => zero, current := 0, shared := false }

/-- `&bt->dumps[me]`, `none` when `me` is outside the array. -/
def btrace.get? (bt : btrace σ) (me : Int) : Option σ :=
  (slotIndex? me).map bt.dumps

theorem btrace.get?_val (bt : btrace σ) (i : Fin SAVE_TRACES) :
    bt.get? ((i : Nat) : Int) = some (bt.dumps i) := by
  simp [btrace.get?, slotIndex?_val]

/-- The store part shared by every `save_backtrace`: `next_btrace_id` reserves a slot, which is
then rewritten by `fill` (the platform's capture). `none` if the id is outside `dumps`. -/
def btrace.save (v : NextId) (fill : σ → σ) (bt : btrace σ) : Option (btrace σ) :=
  let (id, current) := next_btrace_id v bt.current
  (slotIndex? id).map fun i =>
    { bt with current, dumps := Function.update bt.dumps i (fill (bt.dumps i)) }

/-- The slot `print_backtrace(last)` renders: `bt->current-last`, plus `SAVE_TRACES` when
negative. -/
def print_backtrace_index (current last : Int) : Int :=
  let me := current - last
  if me < 0 then me + SAVE_TRACES else me

/-- On a valid cursor and `1 ≤ last ≤ SAVE_TRACES` the rendered slot is
`(current - last) mod SAVE_TRACES`. -/
theorem print_backtrace_index_eq {current last : Int} (h : ValidCursor current)
    (hlast : 1 ≤ last ∧ last ≤ SAVE_TRACES) :
    print_backtrace_index current last = (current - last) % SAVE_TRACES := by
  unfold ValidCursor at h
  simp only [print_backtrace_index, SAVE_TRACES_eq] at *
  split <;> omega

theorem save_valid (v : NextId) (fill : σ → σ) {bt : btrace σ} (h : ValidCursor bt.current) :
    ∃ i : Fin SAVE_TRACES, (i : Int) = bt.current ∧
      bt.save v fill = some
        { bt with current := (bt.current + 1) % SAVE_TRACES,
                  dumps := Function.update bt.dumps i (fill (bt.dumps i)) } := by
  obtain ⟨i, hi, hval⟩ := slotIndex?_of_valid h
  exact ⟨i, hval, by simp [btrace.save, next_btrace_id_of_valid v h, hi]⟩

/-- The statements `steps` of one save run in order on its slot, each a single store. -/
def apply_writes (steps : List (σ → σ)) (x : σ) : σ := steps.foldl (fun x f => f x) x

@[simp] theorem apply_writes_nil (x : σ) : apply_writes [] x = x := rfl

@[simp] theorem apply_writes_cons (f : σ → σ) (steps : List (σ → σ)) (x : σ) :
    apply_writes (f :: steps) x = apply_writes steps (f x) := rfl

theorem apply_writes_append (steps more : List (σ → σ)) (x : σ) :
    apply_writes (steps ++ more) x = apply_writes more (apply_writes steps x) :=
  List.foldl_append _ _ _ _

/-- One more statement of a save, the `n`-th, extends the prefix it has run. -/
theorem apply_writes_take_succ {steps : List (σ → σ)} {n : Nat} {f : σ → σ}
    (h : steps[n]? = some f) (x : σ) :
    apply_writes (steps.take (n + 1)) x = f (apply_writes (steps.take n) x) := by
  rw [List.take_succ, h, apply_writes_append]
  rfl

/-- The steps of the invocations `ts` names, in that order, `step? s t` being the next step of
invocation `t` from `s` (`none` when it has none). -/
def run? {S : Type} (step? : S → Nat → Option S) (s : S) : List Nat → Option S
  | [] => some s
  | t :: ts => (step? s t).bind fun s' => run? step? s' ts

@[simp] theorem run?_nil {S : Type} (step? : S → Nat → Option S) (s : S) :
    run? step? s [] = some s := rfl

theorem run?_cons {S : Type} (step? : S → Nat → Option S) (s : S) (t : Nat) (ts : List Nat) :
    run? step? s (t :: ts) = (step? s t).bind fun s' => run? step? s' ts := rfl

/-- What every step keeps, every run keeps. -/
theorem run?_induct {S : Type} {step? : S → Nat → Option S} (P : S → Prop)
    (hstep : ∀ {s t s'}, P s → step? s t = some s' → P s') :
    ∀ {s : S} {ts : List Nat} {s' : S}, P s → run? step? s ts = some s' → P s'
  | _, [], _, hs, h => Option.some.inj h ▸ hs
  | _, t :: ts, _, hs, h => by
    rw [run?_cons, Option.bind_eq_some] at h
    obtain ⟨mid, hmid, hrest⟩ := h
    exact run?_induct P hstep (hstep hs hmid) hrest

/-- A run that `decide` evaluates: when it ends in a state of which `p` holds. -/
theorem run?_of_decide {S : Type} {step? : S → Nat → Option S} {s : S} {ts : List Nat}
    (p : S → Prop) [DecidablePred p] (h : (run? step? s ts).map (fun s => decide (p s)) = some true) :
    ∃ s', run? step? s ts = some s' ∧ p s' := by
  obtain ⟨s', hrun, hp⟩ := Option.map_eq_some'.mp h
  exact ⟨s', hrun, of_decide_eq_true hp⟩

end swipl.cstack
