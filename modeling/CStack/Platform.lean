import CStack.Ring
import CStack.Platform.Unwind
import CStack.Platform.Glibc
import CStack.Platform.Windows

namespace swipl.cstack

/-- The three stack walkers a build selects with `#if`: libunwind, glibc's `backtrace()` and
Windows' dbghelp. -/
inductive Platform
  | libunwind
  | glibc
  | windows
  deriving DecidableEq, Repr

namespace Platform

/-- A slot of the platform's store. -/
def Slot : Platform → Type
  | libunwind => unwind.btrace_stack
  | glibc => glibc.slot
  | windows => windows.btrace_stack

/-- What one capture takes from the running thread. -/
def Walk : Platform → Type
  | libunwind => List unwind.frame_info
  | glibc => List Nat × Bool
  | windows => windows.Walk

/-- A frame line of the platform's reports. -/
def Frame : Platform → Type
  | libunwind => unwind.frame_line
  | glibc => glibc.frame_line
  | windows => windows.frame_line

/-- A slot as `memset` leaves it. -/
def zero : (p : Platform) → p.Slot
  | libunwind => unwind.btrace_stack.zero
  | glibc => glibc.slot.zero
  | windows => windows.btrace_stack.zero

/-- The label of a slot, `dumps[i].name` or `why[i]`. -/
def label : (p : Platform) → p.Slot → Option String
  | libunwind => unwind.btrace_stack.name
  | glibc => glibc.slot.why
  | windows => windows.btrace_stack.name

/-- The slot a save labelled `why` leaves. -/
def capture : (p : Platform) → String → p.Walk → p.Slot → p.Slot
  | libunwind => unwind.capture
  | glibc => fun why w => glibc.capture why w.1 w.2
  | windows => windows.capture

/-- `print_trace(bt, me)`; `env` is what glibc resolves frames with. -/
def print_trace (env : glibc.Env) : (p : Platform) → btrace p.Slot → Int → Report p.Frame
  | libunwind => unwind.print_trace
  | glibc => glibc.print_trace env
  | windows => windows.print_trace

/-- What `bstore_print_backtrace_named` prints for a label it does not find. -/
def missing : (p : Platform) → String → List (Line p.Frame)
  | libunwind, _ => []
  | glibc, why => [.no_backtrace_named why]
  | windows, _ => []

/-- Whether the allocations of a capture succeed: on glibc the `malloc` of the array of return
addresses; the other builds allocate nothing. -/
def malloc_ok : (p : Platform) → p.Walk → Bool
  | glibc, w => w.2
  | _, _ => true

/-- The stores a save labelled `why` makes to its slot, in program order. -/
def save_steps : (p : Platform) → String → p.Walk → List (p.Slot → p.Slot)
  | libunwind => unwind.save_steps
  | glibc => fun why w => glibc.save_steps why w.1 w.2
  | windows => windows.save_steps

/-- `save_backtrace(why)` on the store `get_trace_store(TRUE)` returned. -/
def save_backtrace (p : Platform) (v : NextId) (why : String) (w : p.Walk)
    (bt : btrace p.Slot) : Option (btrace p.Slot) :=
  bt.save v (p.capture why w)

/-- `bstore_print_backtrace_named(bt, why)`, its scan given `fuel` rounds. -/
def bstore_print_backtrace_named (p : Platform) (env : glibc.Env) (bt : Option (btrace p.Slot))
    (why : String) (fuel : Nat) : Report p.Frame :=
  print_named p.label (p.print_trace env) (p.missing why) bt why fuel

/-- Sequential `save_backtrace` calls, each a label and what its capture walks. -/
def saves (p : Platform) (v : NextId) (calls : List (String × p.Walk)) (bt : btrace p.Slot) :
    Option (btrace p.Slot) :=
  bt.saves v (calls.map fun c => p.capture c.1 c.2)

theorem save_backtrace_eq (v : NextId) (why : String) :
    Platform.save_backtrace .libunwind v why = unwind.save_backtrace v why ∧
    (∀ w, Platform.save_backtrace .glibc v why w =
      swipl.cstack.glibc.save_backtrace v why w.1 w.2) ∧
    Platform.save_backtrace .windows v why = swipl.cstack.windows.win_save_backtrace v why :=
  ⟨rfl, fun _ => rfl, rfl⟩

theorem bstore_print_backtrace_named_eq (env : swipl.cstack.glibc.Env) :
    Platform.bstore_print_backtrace_named .libunwind env = unwind.bstore_print_backtrace_named ∧
    Platform.bstore_print_backtrace_named .glibc env =
      swipl.cstack.glibc.bstore_print_backtrace_named env ∧
    Platform.bstore_print_backtrace_named .windows env =
      swipl.cstack.windows.bstore_print_backtrace_named :=
  ⟨rfl, rfl, rfl⟩

/-- Run in order on a slot, the stores of a save leave what its capture does. -/
theorem apply_writes_save_steps (p : Platform) (why : String) (w : p.Walk) (s : p.Slot) :
    apply_writes (p.save_steps why w) s = p.capture why w s := by
  cases p with
  | libunwind => exact unwind.apply_writes_save_steps why w s
  | glibc => exact glibc.apply_writes_save_steps why w.1 w.2 s
  | windows => exact windows.apply_writes_save_steps why w s

theorem malloc_ok_of_ne_glibc {p : Platform} (hp : p ≠ .glibc) (w : p.Walk) : p.malloc_ok w = true := by
  cases p
  · rfl
  · exact absurd rfl hp
  · rfl

theorem label_zero (p : Platform) : p.label p.zero = none := by
  cases p <;> rfl

theorem label_capture (p : Platform) (why : String) (w : p.Walk) (s : p.Slot) :
    p.label (p.capture why w s) = some why := by
  cases p with
  | glibc => simp [label, capture, glibc.capture_eq]
  | _ => rfl

/-- A slot no save reached prints `"No stack trace"`. -/
theorem print_trace_zero (env : glibc.Env) (p : Platform) {bt : btrace p.Slot} {me : Int}
    (h : bt.get? me = some p.zero) : p.print_trace env bt me = .printed [.no_stack_trace] := by
  cases p <;> simp [print_trace, unwind.print_trace, glibc.print_trace, windows.print_trace, h,
    Report.ofOption, zero, unwind.print_slot, glibc.print_slot, windows.print_slot,
    unwind.btrace_stack.zero, glibc.slot.zero, windows.btrace_stack.zero]

end Platform

end swipl.cstack
