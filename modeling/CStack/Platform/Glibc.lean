import CStack.Scan
import CStack.Addr2line
import Mathlib.Data.List.Infix

namespace swipl.cstack.glibc

open swipl.cstack

/-- What `bt->retaddr[i]` points to. -/
inductive retaddr_ptr
  /-- `NULL`. -/
  | null
  /-- A `malloc`ed array of return addresses. -/
  | block (addrs : List Nat)
  /-- An array `free` has released, still pointed to. -/
  | freed
  deriving DecidableEq, Repr

/-- Slot `i` of the glibc store: `retaddr[i]`, `why[i]` and `sizes[i]`. -/
structure slot where
  retaddr : retaddr_ptr
  why : Option String
  size : Nat
  deriving DecidableEq, Repr

/-- A slot as `memset` leaves it. -/
def slot.zero : slot := ⟨.null, none, 0⟩

/-- `sizeof(array)/sizeof(void *)`: the frames `backtrace()` may store. -/
def BACKTRACE_FRAMES : Nat := 100

/-- The statements of `save_backtrace(why)` after `next_btrace_id`, on the reserved slot. `stack`
lists the return addresses `backtrace()` walks (it keeps the first 100) and `ok` says whether
`malloc` returns a block; a fresh block's indeterminate contents are modelled as zeros. -/
def save_steps (why : String) (stack : List Nat) (ok : Bool) : List (slot → slot) :=
  let array := stack.take BACKTRACE_FRAMES
  [ fun s => { s with size := array.length },
    fun s => match s.retaddr with
      | .null => s
      | _ => { s with retaddr := .freed },
    fun s => { s with retaddr := if ok then .block (List.replicate array.length 0) else .null },
    fun s => if ok then { s with retaddr := .block array } else s,
    fun s => { s with why := some why } ]

/-- The slot `save_backtrace(why)` leaves, its statements run in order. -/
def capture (why : String) (stack : List Nat) (ok : Bool) (s : slot) : slot :=
  (save_steps why stack ok).foldl (fun s step => step s) s

/-- The slot after the first `k` statements of `save_backtrace(why)`, where a signal handler
that preempts the writer there finds it. -/
def capture_partial (k : Nat) (why : String) (stack : List Nat) (ok : Bool) (s : slot) : slot :=
  ((save_steps why stack ok).take k).foldl (fun s step => step s) s

/-- `save_backtrace(why)` on the store `get_trace_store(TRUE)` returned. -/
def save_backtrace (v : NextId) (why : String) (stack : List Nat) (ok : Bool)
    (bt : btrace slot) : Option (btrace slot) :=
  bt.save v (capture why stack ok)

theorem apply_writes_save_steps (why : String) (stack : List Nat) (ok : Bool) (s : slot) :
    apply_writes (save_steps why stack ok) s = capture why stack ok s := rfl

/-- Whatever the slot held, a save leaves the label, the frame count, and the copied frames or
`NULL` when `malloc` failed. -/
theorem capture_eq (why : String) (stack : List Nat) (ok : Bool) (s : slot) :
    capture why stack ok s =
      { retaddr := if ok then .block (stack.take BACKTRACE_FRAMES) else .null, why := some why,
        size := (stack.take BACKTRACE_FRAMES).length } := by
  cases s with
  | mk retaddr why' size =>
    cases ok <;> cases retaddr <;> rfl

/-- What `dladdr` reports for an address. -/
structure Dl_info where
  dli_fname : Option String
  dli_fbase : Nat
  dli_sname : Option String
  dli_saddr : Nat
  deriving DecidableEq, Repr

/-- The parts of the process `print_trace` consults: `dladdr`, the line-resolution helper's
reply to a command (`none` when `popen` fails), and whether the build is `__APPLE__`. -/
structure Env where
  dladdr : Nat → Option Dl_info
  reply : String → Option (List UInt8)
  apple : Bool

/-- `%p` as glibc prints a pointer. -/
def fmt_p (n : Nat) : String :=
  if n = 0 then "(nil)" else "0x" ++ String.mk (Nat.toDigits 16 n)

/-- `ADDR2LINE_CMD` formatted with a file name and an offset. -/
def addr2line_cmd (apple : Bool) (fname : String) (offset : Nat) : String :=
  if apple then "atos -o \"" ++ fname ++ "\" " ++ fmt_p offset
  else "addr2line -fe \"" ++ fname ++ "\" " ++ fmt_p offset

/-- `strstr(s, t) != NULL`. -/
def strstr (s t : String) : Bool := decide (t.toList <:+: s.toList)

/-- The text `%s` prints from `buf` after `addr2line` stored `ws`: the bytes before the first
terminator. -/
def buf_text (ws : List (Nat × UInt8)) : List UInt8 :=
  ((List.range 512).map (store ws fun _ => 0)).takeWhile (· != 0)

/-- The lines of a rendered glibc frame. -/
inductive frame_line
  /-- `"  [%zd] %s [%p]\n"` with the helper's text. -/
  | resolved (i : Nat) (text : List UInt8) (addr : Nat)
  /-- `"  [%zd] %s(%s+0x%tx) [%p]\n"`. -/
  | symbol (i : Nat) (fname sname : String) (delta : Int) (addr : Nat)
  /-- `"  [%zd] %s(+%p) [%p]\n"`. -/
  | offset (i : Nat) (fname : String) (offset : Nat) (addr : Nat)
  /-- `"  [%zd] ??? [%p]\n"`. -/
  | unknown (i : Nat) (addr : Nat)
  deriving DecidableEq, Repr

/-- The body of the frame loop of `print_trace` for frame `i` at `addr`. -/
def print_frame (env : Env) (i addr : Nat) : List (Line frame_line) :=
  match env.dladdr addr with
  | none => []
  | some info =>
    let offset := (addr + 2 ^ 64 - info.dli_fbase) % 2 ^ 64
    match info.dli_fname with
    | none => [.frame (.unknown i addr)]
    | some fname =>
      let fallback : List (Line frame_line) :=
        match info.dli_sname with
        | some sname => [.frame (.symbol i fname sname ((addr : Int) - info.dli_saddr) addr)]
        | none => [.frame (.offset i fname offset addr)]
      if strstr fname ".so" || (env.apple && strstr fname ".dylib") then
        let cmd := addr2line_cmd env.apple fname offset
        let r := (addr2line env.apple cmd (env.reply cmd) 512).get
          (addr2line_isSome env.apple cmd (env.reply cmd) (by decide))
        if r.1 then [.frame (.resolved i (buf_text r.2) addr)] else fallback
      else fallback

/-- `bt->retaddr[me][i]`: `none` through `NULL`, through a freed array, or past its end. -/
def retaddr_ptr.read : retaddr_ptr → Nat → Option Nat
  | .block addrs, i => addrs[i]?
  | _, _ => none

/-- `print_trace` on one slot: `none` when a frame is read outside the slot's array. -/
def print_slot (env : Env) (s : slot) : Option (List (Line frame_line)) :=
  match s.why with
  | none => some [.no_stack_trace]
  | some why =>
    ((List.range s.size).mapM fun i => (s.retaddr.read i).map (print_frame env i)).map
      fun frames => .c_stack_trace_labeled why :: frames.flatten

/-- `print_trace(bt, me)`. -/
def print_trace (env : Env) (bt : btrace slot) (me : Int) : Report frame_line :=
  .ofOption ((bt.get? me).bind (print_slot env))

/-- `bstore_print_backtrace_named(bt, why)`, its scan loop given `fuel` rounds; unlike the other
platforms it reports a label it does not find. -/
def bstore_print_backtrace_named (env : Env) (bt : Option (btrace slot)) (why : String)
    (fuel : Nat) : Report frame_line :=
  print_named slot.why (print_trace env) [.no_backtrace_named why] bt why fuel

/-- A slot whose frames can be printed: its array is there and holds `sizes[i]` addresses. -/
def slot.Printable (s : slot) : Prop :=
  ∃ addrs, s.retaddr = .block addrs ∧ s.size ≤ addrs.length

/-- A labelled slot with its frames in place prints without a fault. -/
theorem print_slot_printable (env : Env) {s : slot} (h : s.Printable) :
    ∃ out, print_slot env s = some out := by
  obtain ⟨addrs, hblock, hsize⟩ := h
  unfold print_slot
  cases s.why with
  | none => exact ⟨_, rfl⟩
  | some why =>
    rw [hblock, mapM_eq_some_map (fun i => print_frame env i (addrs.getD i 0))]
    · exact ⟨_, rfl⟩
    · intro i hi
      simp only [List.mem_range] at hi
      simp [retaddr_ptr.read, List.getElem?_eq_getElem (by omega : i < addrs.length),
        List.getD_eq_getElem?_getD]

/-- A slot written by `save_backtrace(why)` whose `malloc` returned a block renders the heading
labelled `why`, then the frames of the first `BACKTRACE_FRAMES` return addresses in order. -/
theorem print_slot_capture_block (env : Env) (why : String) (stack : List Nat) (s : slot) :
    print_slot env (capture why stack true s) =
      some (.c_stack_trace_labeled why ::
        ((stack.take BACKTRACE_FRAMES).enum.map fun p => print_frame env p.1 p.2).flatten) := by
  rw [capture_eq, if_pos rfl]
  simp only [print_slot]
  rw [mapM_eq_some_map fun i => print_frame env i ((stack.take BACKTRACE_FRAMES).getD i 0)]
  · simp only [Option.map_some', Option.some_inj, List.cons.injEq, true_and]
    congr 1
    apply List.ext_getElem (by simp)
    intro i h1 h2
    simp only [List.length_map, List.length_range] at h1
    simp [List.getD_eq_getElem?_getD, List.getElem?_eq_getElem h1]
  · intro i hi
    simp only [List.mem_range] at hi
    simp [retaddr_ptr.read, List.getD_eq_getElem?_getD, List.getElem?_eq_getElem hi]

/-- A labelled slot faults when one of its first `sizes[i]` frames cannot be read. -/
theorem print_slot_unreadable (env : Env) {s : slot} {why : String} (hwhy : s.why = some why)
    {i : Nat} (hi : i < s.size) (hread : s.retaddr.read i = none) : print_slot env s = none := by
  unfold print_slot
  rw [hwhy, mapM_eq_none (List.mem_range.mpr hi) (by simp [hread])]
  rfl

end swipl.cstack.glibc
