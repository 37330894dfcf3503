import CStack.Scan

namespace swipl.cstack.unwind

open swipl.cstack

/-- `frame_info`: what `unw_get_proc_name` reports for a frame, the function's name (truncated
to `name[32]` by libunwind) and the offset in it. -/
structure frame_info where
  name : String
  offset : Nat
  deriving DecidableEq, Repr

/-- `btrace_stack`: one slot. `name` is the label, `none` for `NULL`. -/
structure btrace_stack where
  name : Option String
  depth : Int
  frame : Fin MAX_DEPTH → frame_info

/-- A slot as `memset` leaves it. -/
def btrace_stack.zero : btrace_stack :=
  { name := none, depth := 0, frame := fun _ => ⟨"", 0⟩ }

/-- The `for` loop of `save_backtrace` from frame `depth`, writing `s->frame[depth]`; `walk`
lists what `unw_get_proc_name` reports on each frame for which `unw_step` still succeeds.
Returns the slot and the final `depth`. -/
def unw_frames : List frame_info → Nat → btrace_stack → btrace_stack × Nat
  | [], depth, s => (s, depth)
  | f :: walk, depth, s =>
    if h : depth < MAX_DEPTH then
      unw_frames walk (depth + 1) { s with frame := Function.update s.frame ⟨depth, h⟩ f }
    else (s, depth)

/-- The slot `save_backtrace(why)` writes: the frames, then `s->name = why; s->depth = depth;`. -/
def capture (why : String) (walk : List frame_info) (s : btrace_stack) : btrace_stack :=
  let r := unw_frames walk 0 s
  { r.1 with name := some why, depth := r.2 }

/-- `save_backtrace(why)` on the store `get_trace_store(TRUE)` returned. -/
def save_backtrace (v : NextId) (why : String) (walk : List frame_info)
    (bt : btrace btrace_stack) : Option (btrace btrace_stack) :=
  bt.save v (capture why walk)

/-- A line `"  [%d] %s+%p\n"` of a rendered trace. -/
structure frame_line where
  depth : Nat
  name : String
  offset : Nat
  deriving DecidableEq, Repr

/-- `print_trace` on one slot: `none` when it reads `s->frame[depth]` outside the array. -/
def print_slot (s : btrace_stack) : Option (List (Line frame_line)) :=
  match s.name with
  | none => some [.no_stack_trace]
  | some why =>
    ((List.range s.depth.toNat).mapM fun d =>
      if h : d < MAX_DEPTH then
        some (Line.frame ⟨d, (s.frame ⟨d, h⟩).name, (s.frame ⟨d, h⟩).offset⟩)
      else none).map (.c_stack_trace_labeled why :: ·)

/-- `print_trace(bt, me)`. -/
def print_trace (bt : btrace btrace_stack) (me : Int) : Report frame_line :=
  .ofOption ((bt.get? me).bind print_slot)

/-- `bstore_print_backtrace_named(bt, why)`, its scan loop given `fuel` rounds. -/
def bstore_print_backtrace_named (bt : Option (btrace btrace_stack)) (why : String)
    (fuel : Nat) : Report frame_line :=
  print_named btrace_stack.name print_trace [] bt why fuel

/-- The statements of the `for` loop of `save_backtrace` from frame `depth`, one store of
`s->frame[depth]` per frame, and the final `depth`. -/
def unw_steps : List frame_info → Nat → List (btrace_stack → btrace_stack) × Nat
  | [], depth => ([], depth)
  | f :: walk, depth =>
    if h : depth < MAX_DEPTH then
      let r := unw_steps walk (depth + 1)
      ((fun s => { s with frame := Function.update s.frame ⟨depth, h⟩ f }) :: r.1, r.2)
    else ([], depth)

/-- The stores `save_backtrace(why)` makes to its slot, in program order: the frames, then
`s->name = why; s->depth = depth;`. -/
def save_steps (why : String) (walk : List frame_info) : List (btrace_stack → btrace_stack) :=
  let r := unw_steps walk 0
  r.1 ++ [fun s => { s with name := some why }, fun s => { s with depth := r.2 }]

theorem unw_frames_depth :
    ∀ (walk : List frame_info) (depth : Nat) (s : btrace_stack), depth ≤ MAX_DEPTH →
      (unw_frames walk depth s).2 = min (depth + walk.length) MAX_DEPTH
  | [], depth, s, h => by simp [unw_frames, Nat.min_eq_left h]
  | f :: walk, depth, s, h => by
    unfold unw_frames
    split
    · rw [unw_frames_depth walk (depth + 1) _ (by omega)]
      simp only [List.length_cons]
      omega
    · simp only [List.length_cons]
      omega

/-- Writing the frames leaves a frame's entry untouched beyond the ones written. -/
theorem unw_frames_frame :
    ∀ (walk : List frame_info) (depth : Nat) (s : btrace_stack) (d : Fin MAX_DEPTH),
      (d : Nat) < depth → (unw_frames walk depth s).1.frame d = s.frame d
  | [], _, _, _, _ => rfl
  | f :: walk, depth, s, d, hd => by
    unfold unw_frames
    split
    · rw [unw_frames_frame walk (depth + 1) _ d (by omega)]
      exact Function.update_noteq (fun h => by rw [h] at hd; simp at hd) _ _
    · rfl

/-- The loop writes the frames of the walk in order, at most `MAX_DEPTH` of them. -/
theorem unw_frames_written :
    ∀ (walk : List frame_info) (depth : Nat) (s : btrace_stack) (d : Fin MAX_DEPTH),
      depth ≤ d → ∀ hw : (d : Nat) - depth < walk.length,
      (unw_frames walk depth s).1.frame d = walk[(d : Nat) - depth]
  | [], _, _, _, _, hw => absurd hw (Nat.not_lt_zero _)
  | f :: walk, depth, s, d, hd, hw => by
    unfold unw_frames
    rw [dif_pos (by omega)]
    rcases Nat.lt_or_ge depth d with hlt | hge
    · rw [unw_frames_written walk (depth + 1) _ d (by omega) (by simp at hw; omega)]
      have hidx : (d : Nat) - depth = (d - (depth + 1)) + 1 := by omega
      simp only [hidx, List.getElem_cons_succ]
    · rw [unw_frames_frame walk (depth + 1) _ d (by omega)]
      obtain ⟨dv, hdv⟩ := d
      obtain rfl : dv = depth := by simp only at hd hge; omega
      simp

/-- The loop's stores, run in order, leave what the loop does. -/
theorem unw_steps_eq :
    ∀ (walk : List frame_info) (depth : Nat) (s : btrace_stack),
      apply_writes (unw_steps walk depth).1 s = (unw_frames walk depth s).1 ∧
        (unw_steps walk depth).2 = (unw_frames walk depth s).2
  | [], _, _ => ⟨rfl, rfl⟩
  | f :: walk, depth, s => by
    unfold unw_steps unw_frames
    split
    · exact unw_steps_eq walk (depth + 1) _
    · exact ⟨rfl, rfl⟩

/-- The stores of a save, run one after the other on its slot, leave the captured slot. -/
theorem apply_writes_save_steps (why : String) (walk : List frame_info) (s : btrace_stack) :
    apply_writes (save_steps why walk) s = capture why walk s := by
  obtain ⟨hslot, hdepth⟩ := unw_steps_eq walk 0 s
  simp only [save_steps, apply_writes_append, hslot, hdepth]
  rfl

/-- A frame store leaves the slot's depth as it was. -/
theorem unw_steps_keep_depth :
    ∀ (walk : List frame_info) (depth : Nat), ∀ step ∈ (unw_steps walk depth).1,
      ∀ s : btrace_stack, (step s).depth = s.depth
  | [], _, _, h, _ => by cases h
  | f :: walk, depth, step, h, s => by
    unfold unw_steps at h
    split at h
    · rcases List.mem_cons.mp h with rfl | h
      · rfl
      · exact unw_steps_keep_depth walk _ _ h s
    · cases h

/-- No store of a save leaves a depth beyond `MAX_DEPTH` in a slot that had none. -/
theorem save_steps_depth {why : String} {walk : List frame_info} {step : btrace_stack → btrace_stack}
    (hstep : step ∈ save_steps why walk) {s : btrace_stack} (hs : s.depth ≤ MAX_DEPTH) :
    (step s).depth ≤ MAX_DEPTH := by
  simp only [save_steps, List.mem_append, List.mem_cons, List.mem_singleton,
    List.not_mem_nil, or_false] at hstep
  rcases hstep with h | rfl | rfl
  · rw [unw_steps_keep_depth walk 0 step h s]
    exact hs
  · exact hs
  · have := (unw_steps_eq walk 0 s).2
    rw [unw_frames_depth walk 0 s (Nat.zero_le _)] at this
    show ((unw_steps walk 0).2 : Int) ≤ MAX_DEPTH
    omega

theorem capture_name (why : String) (walk : List frame_info) (s : btrace_stack) :
    (capture why walk s).name = some why := rfl

theorem capture_depth (why : String) (walk : List frame_info) (s : btrace_stack) :
    (capture why walk s).depth = min walk.length MAX_DEPTH := by
  simp [capture, unw_frames_depth walk 0 s (Nat.zero_le _)]

/-- A slot with at most `MAX_DEPTH` frames prints without a fault. -/
theorem print_slot_of_depth {s : btrace_stack} (h : s.depth ≤ MAX_DEPTH) :
    ∃ out, print_slot s = some out := by
  unfold print_slot
  cases s.name with
  | none => exact ⟨_, rfl⟩
  | some why =>
    rw [mapM_eq_some_map fun d =>
      if hd : d < MAX_DEPTH then Line.frame ⟨d, (s.frame ⟨d, hd⟩).name, (s.frame ⟨d, hd⟩).offset⟩
      else .no_stack_trace]
    · exact ⟨_, rfl⟩
    · intro d hd
      simp only [List.mem_range] at hd
      have hd' : d < MAX_DEPTH := by omega
      simp [hd']

/-- What a slot written by `save_backtrace(why)` renders: the heading with the label, then the
first `MAX_DEPTH` frames of the walk in order. -/
def rendered (why : String) (walk : List frame_info) : List (Line frame_line) :=
  .c_stack_trace_labeled why ::
    (walk.take MAX_DEPTH).enum.map fun p => .frame ⟨p.1, p.2.name, p.2.offset⟩

/-- A captured slot renders its own label and frames, whatever the slot held before. -/
theorem print_slot_capture (why : String) (walk : List frame_info) (s : btrace_stack) :
    print_slot (capture why walk s) = some (rendered why walk) := by
  have hdepth := capture_depth why walk s
  simp only [print_slot, capture_name, rendered, hdepth, Int.toNat_ofNat]
  rw [mapM_eq_some_map (fun d => .frame ⟨d, (walk.getD d ⟨"", 0⟩).name,
    (walk.getD d ⟨"", 0⟩).offset⟩)]
  · simp only [Option.map_some', Option.some_inj, List.cons.injEq, true_and]
    apply List.ext_getElem (by simp [Nat.min_comm])
    intro d h1 h2
    simp only [List.length_map, List.length_range] at h1
    simp [List.getElem_take, List.getElem?_eq_getElem (by omega : d < walk.length)]
  · intro d hd
    simp only [List.mem_range] at hd
    have hdmax : d < MAX_DEPTH := by omega
    have hframe := unw_frames_written walk 0 s ⟨d, hdmax⟩ (Nat.zero_le _) (by simp; omega)
    simp only [Nat.sub_zero] at hframe
    simp [hdmax, capture, hframe, List.getElem?_eq_getElem (by omega : d < walk.length)]

end swipl.cstack.unwind
