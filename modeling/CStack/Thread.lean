import CStack.Platform

namespace swipl.cstack

/-- `LD->btrace_store`: `NULL`, a store, or a store that `btrace_destroy` freed while it was
still attached. -/
inductive store_ptr (σ : Type)
  | null
  | store (bt : btrace σ)
  | freed

/-- What the store operations of one thread read and write: whether it has an execution context
(`LD`), and `LD->btrace_store`. -/
structure Thread (σ : Type) where
  has_ld : Bool
  btrace_store : store_ptr σ

/-- What `get_trace_store` returns. -/
inductive ptr (σ : Type)
  | null
  /-- `LD->btrace_store`. -/
  | attached
  /-- A store it has just `malloc`ed, which no thread holds. -/
  | fresh (bt : btrace σ)

variable {σ : Type}

/-- `memset(s, 0, sizeof(*s)); s->shared = TRUE;` -/
def btrace.shared_store (zero : σ) : btrace σ := { btrace.zeroed zero with shared := true }

/-- `get_trace_store(create)` of the libunwind and glibc builds, which test `LD` (`HAS_LD`)
first; `ok` is whether its `malloc` returns a block. -/
def get_trace_store_ld (zero : σ) (create ok : Bool) (th : Thread σ) : Thread σ × ptr σ :=
  if th.has_ld then
    match th.btrace_store with
    | .null =>
      if ok then ({ th with btrace_store := .store (btrace.shared_store zero) }, .attached)
      else (th, .null)
    | _ => (th, .attached)
  else if create then (th, if ok then .fresh (btrace.zeroed zero) else .null)
  else (th, .null)

/-- `get_trace_store(create)` of the libunwind build. -/
def unwind.get_trace_store (create ok : Bool) (th : Thread unwind.btrace_stack) :
    Thread unwind.btrace_stack × ptr unwind.btrace_stack :=
  get_trace_store_ld unwind.btrace_stack.zero create ok th

/-- `get_trace_store(create)` of the glibc build. -/
def glibc.get_trace_store (create ok : Bool) (th : Thread glibc.slot) :
    Thread glibc.slot × ptr glibc.slot :=
  get_trace_store_ld glibc.slot.zero create ok th

/-- `get_trace_store(create)` of the Windows build. It reads `LD` without testing it (`none` for
a thread without one), and once the thread has a store, `create` makes a new unshared one. -/
def windows.get_trace_store (create ok : Bool) (th : Thread windows.btrace_stack) :
    Option (Thread windows.btrace_stack × ptr windows.btrace_stack) :=
  if th.has_ld then
    some <| match th.btrace_store with
      | .null =>
        if ok then ({ th with btrace_store := .store (btrace.shared_store windows.btrace_stack.zero) },
          .attached)
        else (th, .null)
      | _ =>
        if create then (th, if ok then .fresh (btrace.zeroed windows.btrace_stack.zero) else .null)
        else (th, .attached)
  else none

/-- `get_trace_store(create)` of each build; `none` is a fault. -/
def Platform.get_trace_store :
    (p : Platform) → Bool → Bool → Thread p.Slot → Option (Thread p.Slot × ptr p.Slot)
  | .libunwind, create, ok, th => some (unwind.get_trace_store create ok th)
  | .glibc, create, ok, th => some (glibc.get_trace_store create ok th)
  | .windows, create, ok, th => windows.get_trace_store create ok th

/-- The store behind a pointer, `some none` for `NULL` and `none` for a freed store. -/
def ptr.deref (th : Thread σ) : ptr σ → Option (Option (btrace σ))
  | .null => some none
  | .fresh bt => some (some bt)
  | .attached =>
    match th.btrace_store with
    | .null => some none
    | .store bt => some (some bt)
    | .freed => none

/-- `if ( bt && !bt->shared ) btrace_destroy(bt);` as the thread sees it: only freeing its own
store changes it. -/
def Thread.release (th : Thread σ) : ptr σ → Option (btrace σ) → Thread σ
  | .attached, some bt => if bt.shared then th else { th with btrace_store := .freed }
  | _, _ => th

/-- `c_backtrace_clear`: destroy the thread's store and detach it; `none` is a fault. -/
def Thread.c_backtrace_clear (th : Thread σ) : Option (Thread σ) :=
  if th.has_ld then
    match th.btrace_store with
    | .freed => none
    | _ => some { th with btrace_store := .null }
  else none

/-- The store operations a thread calls. -/
inductive Op (p : Platform)
  | save_backtrace (why : String) (w : p.Walk)
  | print_backtrace (last : Int)
  | print_backtrace_named (why : String)
  | print_c_backtrace (why : String) (w : p.Walk)
  | c_backtrace_clear

namespace Thread

variable (p : Platform) (v : NextId) (env : glibc.Env) (fuel : Nat)

/-- `save_backtrace(why)`: the thread after it and the pointer it returns; `none` is a fault. -/
def save_backtrace (why : String) (w : p.Walk) (ok : Bool) (th : Thread p.Slot) :
    Option (Thread p.Slot × ptr p.Slot) :=
  (p.get_trace_store true ok th).bind fun (th, g) =>
    match g with
    | .null => some (th, .null)
    | .fresh bt => (p.save_backtrace v why w bt).map fun bt => (th, .fresh bt)
    | .attached =>
      match th.btrace_store with
      | .null => some (th, .null)
      | .store bt =>
        (p.save_backtrace v why w bt).map fun bt => ({ th with btrace_store := .store bt }, .attached)
      | .freed => none

/-- `print_backtrace(last)`. -/
def print_backtrace (last : Int) (ok : Bool) (th : Thread p.Slot) : Thread p.Slot × Report p.Frame :=
  match p.get_trace_store false ok th with
  | none => (th, .fault)
  | some (th, g) =>
    (th, match g.deref th with
      | some (some bt) => print_latest (p.print_trace env) bt last
      | some none => .printed [.no_backtrace_store]
      | none => .fault)

/-- `print_backtrace_named(why)`. -/
def print_backtrace_named (why : String) (ok : Bool) (th : Thread p.Slot) :
    Thread p.Slot × Report p.Frame :=
  match p.get_trace_store false ok th with
  | none => (th, .fault)
  | some (th, g) =>
    (th, match g.deref th with
      | some bt => p.bstore_print_backtrace_named env bt why fuel
      | none => .fault)

/-- `print_c_backtrace(why)`: save, print by the label, and destroy an unshared store. -/
def print_c_backtrace (why : String) (w : p.Walk) (ok : Bool) (th : Thread p.Slot) :
    Thread p.Slot × Report p.Frame :=
  match save_backtrace p v why w ok th with
  | none => (th, .fault)
  | some (th, g) =>
    match g.deref th with
    | some bt => (th.release g bt, p.bstore_print_backtrace_named env bt why fuel)
    | none => (th, .fault)

/-- One call, `ok` being whether the `malloc` of its `get_trace_store` returns a block. -/
def call (ok : Bool) : Op p → Thread p.Slot → Thread p.Slot × Report p.Frame
  | .save_backtrace why w, th =>
    match save_backtrace p v why w ok th with
    | some (th, _) => (th, .printed [])
    | none => (th, .fault)
  | .print_backtrace last, th => print_backtrace p env last ok th
  | .print_backtrace_named why, th => print_backtrace_named p env fuel why ok th
  | .print_c_backtrace why w, th => print_c_backtrace p v env fuel why w ok th
  | .c_backtrace_clear, th =>
    match th.c_backtrace_clear with
    | some th => (th, .printed [])
    | none => (th, .fault)

theorem call_print_backtrace (ok : Bool) (last : Int) (th : Thread p.Slot) :
    call p v env fuel ok (.print_backtrace last) th = print_backtrace p env last ok th := rfl

theorem call_print_backtrace_named (ok : Bool) (why : String) (th : Thread p.Slot) :
    call p v env fuel ok (.print_backtrace_named why) th = print_backtrace_named p env fuel why ok th :=
  rfl

theorem call_c_backtrace_clear (ok : Bool) (th : Thread p.Slot) :
    call p v env fuel ok .c_backtrace_clear th =
      match th.c_backtrace_clear with
      | some th => (th, .printed [])
      | none => (th, .fault) := rfl

/-- A sequence of calls and what each reports. -/
def run : List (Op p × Bool) → Thread p.Slot → Thread p.Slot × List (Report p.Frame)
  | [], th => (th, [])
  | (op, ok) :: calls, th =>
    let r := call p v env fuel ok op th
    let rest := run calls r.1
    (rest.1, r.2 :: rest.2)

end Thread

end swipl.cstack
