import CStack.Scan

namespace swipl.cstack.windows

open swipl.cstack

/-- `frame_info`: what the loop of `backtrace()` records for a frame from `StackWalk64`,
`SymGetModuleInfo64` and `SymFromAddr`. An empty `module` is `module[0] == '\0'`. -/
structure frame_info where
  name : String
  offset : Nat
  module : String
  module_reason : Nat
  deriving DecidableEq, Repr

/-- `btrace_stack`: one slot. `name` is the label, `none` for `NULL`. -/
structure btrace_stack where
  name : Option String
  depth : Int
  frame : Fin MAX_DEPTH → frame_info

/-- A slot as `memset` leaves it. -/
def btrace_stack.zero : btrace_stack :=
  { name := none, depth := 0, frame := fun _ => ⟨"", 0, "", 0⟩ }

/-- The `while` loop of `backtrace()` from frame `depth` with `skip` frames still to skip;
`walk` lists what each further successful `StackWalk64` step records. Returns the slot and the
final `depth`. -/
def walk_frames : List frame_info → Nat → Nat → btrace_stack → btrace_stack × Nat
  | walk, skip, depth, t =>
    if h : depth < MAX_DEPTH then
      match walk with
      | [] => (t, depth)
      | f :: walk =>
        if 0 < skip then walk_frames walk (skip - 1) depth t
        else walk_frames walk skip (depth + 1) { t with frame := Function.update t.frame ⟨depth, h⟩ f }
    else (t, depth)

/-- `backtrace(trace, pExceptionInfo)`: without an exception record the first two frames (the
handler's own) are skipped; `0` frames when `SymInitialize` fails. -/
def backtrace (exception : Bool) (sym_ok : Bool) (walk : List frame_info) (t : btrace_stack) :
    btrace_stack × Nat :=
  if sym_ok then walk_frames walk (if exception then 0 else 2) 0 t else (t, 0)

/-- What one capture takes from the thread: whether there is an exception record, whether
`SymInitialize` succeeds, and the frames `StackWalk64` yields. -/
structure Walk where
  exception : Bool
  sym_ok : Bool
  frames : List frame_info

/-- The slot `win_save_backtrace(why, ...)` writes: `s->depth = backtrace(s, ...)`, then
`s->name = why`. -/
def capture (why : String) (w : Walk) (s : btrace_stack) : btrace_stack :=
  let r := backtrace w.exception w.sym_ok w.frames s
  { r.1 with depth := r.2, name := some why }

/-- `win_save_backtrace(why, pExceptionInfo)` on the store `get_trace_store(TRUE)` returned. -/
def win_save_backtrace (v : NextId) (why : String) (w : Walk) (bt : btrace btrace_stack) :
    Option (btrace btrace_stack) :=
  bt.save v (capture why w)

/-- The statements of the `while` loop of `backtrace()` from frame `depth` with `skip` frames
still to skip, one store of `trace->frame[depth]` per recorded frame, and the final `depth`. -/
def walk_steps : List frame_info → Nat → Nat → List (btrace_stack → btrace_stack) × Nat
  | walk, skip, depth =>
    if h : depth < MAX_DEPTH then
      match walk with
      | [] => ([], depth)
      | f :: walk =>
        if 0 < skip then walk_steps walk (skip - 1) depth
        else
          let r := walk_steps walk skip (depth + 1)
          ((fun t => { t with frame := Function.update t.frame ⟨depth, h⟩ f }) :: r.1, r.2)
    else ([], depth)

/-- The stores of `backtrace(s, pExceptionInfo)` and the depth it returns. -/
def backtrace_steps (exception : Bool) (sym_ok : Bool) (walk : List frame_info) :
    List (btrace_stack → btrace_stack) × Nat :=
  if sym_ok then walk_steps walk (if exception then 0 else 2) 0 else ([], 0)

/-- The stores `win_save_backtrace(why, ...)` makes to its slot, in program order: the frames,
then `s->depth = backtrace(...)` and `s->name = why`. Each frame's fields are written as one
store. -/
def save_steps (why : String) (w : Walk) : List (btrace_stack → btrace_stack) :=
  let r := backtrace_steps w.exception w.sym_ok w.frames
  r.1 ++ [fun s => { s with depth := r.2 }, fun s => { s with name := some why }]

/-- The lines of a rendered Windows frame (built without `HAVE_LIBDWARF`). -/
inductive frame_line
  /-- `"  [%d] <%s>:%s() [%p]\n"`. -/
  | module (depth : Nat) (module name : String) (offset : Nat)
  /-- `"  [%d] <unknown module>:%s [%p]\n"`. -/
  | unknown_module (depth : Nat) (name : String) (offset : Nat)
  deriving DecidableEq, Repr

/-- The line of frame `depth`. -/
def print_frame (depth : Nat) (f : frame_info) : Line frame_line :=
  if f.module ≠ "" then .frame (.module depth f.module f.name f.offset)
  else .frame (.unknown_module depth f.name f.offset)

/-- `print_trace` on one slot: `none` when it reads `s->frame[depth]` outside the array. -/
def print_slot (s : btrace_stack) : Option (List (Line frame_line)) :=
  match s.name with
  | none => some [.no_stack_trace]
  | some why =>
    ((List.range s.depth.toNat).mapM fun d =>
      if h : d < MAX_DEPTH then some (print_frame d (s.frame ⟨d, h⟩)) else none).map
      (.stack_trace_labeled why :: ·)

/-- `print_trace(bt, me)`. -/
def print_trace (bt : btrace btrace_stack) (me : Int) : Report frame_line :=
  .ofOption ((bt.get? me).bind print_slot)

/-- `bstore_print_backtrace_named(bt, why)`, its scan loop given `fuel` rounds. -/
def bstore_print_backtrace_named (bt : Option (btrace btrace_stack)) (why : String)
    (fuel : Nat) : Report frame_line :=
  print_named btrace_stack.name print_trace [] bt why fuel

theorem walk_frames_depth :
    ∀ (walk : List frame_info) (skip depth : Nat) (t : btrace_stack), depth ≤ MAX_DEPTH →
      (walk_frames walk skip depth t).2 ≤ MAX_DEPTH
  | walk, skip, depth, t, h => by
    unfold walk_frames
    split
    · split
      · exact h
      · rename_i f walk
        split
        · exact walk_frames_depth walk _ _ _ h
        · exact walk_frames_depth walk _ _ _ (by omega)
    · exact h

/-- The loop's stores, run in order, leave what the loop does. -/
theorem walk_steps_eq :
    ∀ (walk : List frame_info) (skip depth : Nat) (t : btrace_stack),
      apply_writes (walk_steps walk skip depth).1 t = (walk_frames walk skip depth t).1 ∧
        (walk_steps walk skip depth).2 = (walk_frames walk skip depth t).2
  | walk, skip, depth, t => by
    unfold walk_steps walk_frames
    split
    · split
      · exact ⟨rfl, rfl⟩
      · rename_i f walk
        split
        · exact walk_steps_eq walk _ _ t
        · exact walk_steps_eq walk _ _ _
    · exact ⟨rfl, rfl⟩

theorem backtrace_steps_eq (exception sym_ok : Bool) (walk : List frame_info) (t : btrace_stack) :
    apply_writes (backtrace_steps exception sym_ok walk).1 t = (backtrace exception sym_ok walk t).1 ∧
      (backtrace_steps exception sym_ok walk).2 = (backtrace exception sym_ok walk t).2 := by
  unfold backtrace_steps backtrace
  split
  · exact walk_steps_eq _ _ _ t
  · exact ⟨rfl, rfl⟩

/-- The stores of a save, run one after the other on its slot, leave the captured slot. -/
theorem apply_writes_save_steps (why : String) (w : Walk) (s : btrace_stack) :
    apply_writes (save_steps why w) s = capture why w s := by
  obtain ⟨hslot, hdepth⟩ := backtrace_steps_eq w.exception w.sym_ok w.frames s
  simp only [save_steps, apply_writes_append, hslot, hdepth]
  rfl

/-- A frame store leaves the slot's depth as it was. -/
theorem walk_steps_keep_depth :
    ∀ (walk : List frame_info) (skip depth : Nat), ∀ step ∈ (walk_steps walk skip depth).1,
      ∀ t : btrace_stack, (step t).depth = t.depth
  | walk, skip, depth, step, h, t => by
    unfold walk_steps at h
    split at h
    · split at h
      · cases h
      · rename_i f walk
        split at h
        · exact walk_steps_keep_depth walk _ _ step h t
        · rcases List.mem_cons.mp h with rfl | h
          · rfl
          · exact walk_steps_keep_depth walk _ _ step h t
    · cases h

theorem capture_name (why : String) (w : Walk) (s : btrace_stack) :
    (capture why w s).name = some why := rfl

/-- A capture records between none and `MAX_DEPTH` frames. -/
theorem capture_depth (why : String) (w : Walk) (s : btrace_stack) :
    0 ≤ (capture why w s).depth ∧ (capture why w s).depth ≤ MAX_DEPTH := by
  simp only [capture, backtrace]
  split
  · have := walk_frames_depth w.frames (if w.exception then 0 else 2) 0 s (Nat.zero_le _)
    omega
  · exact ⟨le_rfl, by omega⟩

/-- No store of a save leaves a depth beyond `MAX_DEPTH` in a slot that had none. -/
theorem save_steps_depth {why : String} {w : Walk} {step : btrace_stack → btrace_stack}
    (hstep : step ∈ save_steps why w) {s : btrace_stack} (hs : s.depth ≤ MAX_DEPTH) :
    (step s).depth ≤ MAX_DEPTH := by
  simp only [save_steps, List.mem_append, List.mem_cons, List.mem_singleton,
    List.not_mem_nil, or_false] at hstep
  rcases hstep with h | rfl | rfl
  · unfold backtrace_steps at h
    split at h
    · rw [walk_steps_keep_depth _ _ _ step h s]
      exact hs
    · cases h
  · have hdepth := (capture_depth why w s).2
    simp only [capture, ← (backtrace_steps_eq w.exception w.sym_ok w.frames s).2] at hdepth
    exact hdepth
  · exact hs

/-- A slot with at most `MAX_DEPTH` frames prints without a fault. -/
theorem print_slot_of_depth {s : btrace_stack} (h : s.depth ≤ MAX_DEPTH) :
    ∃ out, print_slot s = some out := by
  unfold print_slot
  cases s.name with
  | none => exact ⟨_, rfl⟩
  | some why =>
    rw [mapM_eq_some_map fun d =>
      if hd : d < MAX_DEPTH then print_frame d (s.frame ⟨d, hd⟩) else .no_stack_trace]
    · exact ⟨_, rfl⟩
    · intro d hd
      simp only [List.mem_range] at hd
      have hd' : d < MAX_DEPTH := by omega
      simp [hd']

end swipl.cstack.windows
