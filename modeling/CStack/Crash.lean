import CStack.History

namespace swipl.cstack

/-- What a crash handler does, in order. -/
inductive CrashEffect (φ : Type)
  /-- `signal(sig, SIG_DFL)`. -/
  | signal_default (sig : Nat)
  /-- `alarm(secs)`. -/
  | alarm (secs : Nat)
  /-- `"\nSWI-Prolog [thread %d (%Ws) at %s]: received fatal signal %d (%s)\n"`. -/
  | banner (tid : Int) (name : String) (time : String) (sig : Nat) (signame : String)
  /-- What the handler's C-stack report prints. -/
  | c_backtrace (r : Report φ)
  /-- `"Prolog stack:\n"`, then `PL_backtrace(25, PL_BT_SAFE)`. -/
  | prolog_stack
  /-- `"Running on_halt hooks with status %d\n"`, then `run_on_halt(&GD->os.exit_hooks, status)`. -/
  | on_halt (status : Int)
  /-- `"Killing %d with default signal handlers\n"`, then `kill(pid, sig)`. -/
  | kill (sig : Nat)
  /-- `abort()`. -/
  | abort

/-- What `sigCrashHandler` reads from the build and the process: the other signals it resets
(those of `SIGALRM`, `SIGABRT` and `SIGSEGV` the build defines), `HAVE_ALARM`, `HAVE_KILL`, the
thread's id, its alias if `PL_get_thread_alias` finds one, the time, and `signal_name`. -/
structure CrashEnv where
  other_signals : List Nat
  have_alarm : Bool
  have_kill : Bool
  tid : Int
  thread_alias : Option String
  time : String
  signal_name : Nat → String

/-- `sigCrashHandler(sig)`, `w` being what the capture walks and `ok` whether the `malloc` of a
store it creates returns a block. -/
def sigCrashHandler (p : Platform) (v : NextId) (env : glibc.Env) (fuel : Nat) (ce : CrashEnv)
    (sig : Nat) (w : p.Walk) (ok : Bool) (th : Thread p.Slot) :
    Thread p.Slot × List (CrashEffect p.Frame) :=
  let r := Thread.print_c_backtrace p v env fuel "crash" w ok th
  (r.1, (sig :: ce.other_signals).map .signal_default ++
    (if ce.have_alarm then [.alarm 10] else []) ++
    [.banner ce.tid (ce.thread_alias.getD "") ce.time sig (ce.signal_name sig), .c_backtrace r.2,
      .prolog_stack, .on_halt (128 + sig), if ce.have_kill then .kill sig else .abort])

/-- `crashHandler` of the Windows build: `win_save_backtrace("crash", ...)`, then
`print_backtrace_named("crash")` and `abort()`. -/
def windows.crashHandler (v : NextId) (env : glibc.Env) (fuel : Nat) (w : windows.Walk)
    (ok₁ ok₂ : Bool) (th : Thread windows.btrace_stack) :
    Thread windows.btrace_stack × List (CrashEffect windows.frame_line) :=
  match Thread.save_backtrace .windows v "crash" w ok₁ th with
  | none => (th, [.c_backtrace .fault])
  | some (th, _) =>
    let r := Thread.print_backtrace_named .windows env fuel "crash" ok₂ th
    (r.1, [.c_backtrace r.2, .abort])

end swipl.cstack
