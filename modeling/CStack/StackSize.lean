import Mathlib.Data.List.Basic

namespace swipl.cstack

/-- The configuration `CStackSize` is compiled with: `O_PLMT`, `HAVE_PTHREAD_GETATTR_NP` and
`HAVE_GETRLIMIT`. -/
structure StackBuild where
  o_plmt : Bool
  have_pthread_getattr_np : Bool
  have_getrlimit : Bool

/-- The fields of `PL_thread_info_t` that `CStackSize` reads and writes, `size_t` and `void*`
being `w`-bit words. -/
structure thread_info (w : Nat) where
  pl_tid : Int
  c_stack_size : BitVec w
  c_stack_base : BitVec w

/-- What the system calls of one `CStackSize` call return. -/
structure StackSys (w : Nat) where
  /-- `pthread_getattr_np(info->tid, &attr) == 0`, and the base and size that
  `pthread_attr_getstack` reads from `attr`. -/
  getattr : Option (BitVec w × BitVec w)
  /-- `getrlimit(RLIMIT_STACK, &rlim) == 0`, and `rlim.rlim_cur`. -/
  rlimit : Option (BitVec w)
  /-- `round_pages((size_t)&info)`: the address of a local of `CStackSize`, rounded up to a
  page by `ROUND`, which is defined outside this file. -/
  top : BitVec w

/-- `RLIM_INFINITY`: all bits set. -/
def RLIM_INFINITY (w : Nat) : BitVec w := BitVec.allOnes w

variable {w : Nat}

/-- The block of `CStackSize` for a thread other than the main one (`info->pl_tid != 1`). -/
def thread_stack_size (b : StackBuild) (sys : StackSys w) (info : thread_info w) :
    thread_info w :=
  if b.have_pthread_getattr_np then
    match sys.getattr with
    | some (base, size) => { info with c_stack_base := base, c_stack_size := size }
    | none => { info with c_stack_size := -1 }
  else info

/-- The `getrlimit` block of `CStackSize`, for the main thread. -/
def main_stack_size (b : StackBuild) (sys : StackSys w) (info : thread_info w) : thread_info w :=
  if b.have_getrlimit then
    match sys.rlimit with
    | some cur =>
      if cur ≠ RLIM_INFINITY w ∧ cur ≠ 0 then
        { info with c_stack_size := cur, c_stack_base := sys.top - cur }
      else { info with c_stack_size := -1 }
    | none => { info with c_stack_size := -1 }
  else info

/-- `CStackSize()`: the info after the call and the size it returns. A size found once, or
`(size_t)-1` for a lookup that failed, stays in `info->c_stack_size` and is returned from then
on. -/
def CStackSize (b : StackBuild) (sys : StackSys w) (info : thread_info w) :
    thread_info w × BitVec w :=
  if b.o_plmt then
    if info.c_stack_size ≠ 0 then (info, info.c_stack_size)
    else
      let info := if info.pl_tid ≠ 1 then thread_stack_size b sys info else main_stack_size b sys info
      (info, info.c_stack_size)
  else (info, -1)

/-- Successive calls of `CStackSize` on one thread, each given what the system returns then. -/
def CStackSize_run (b : StackBuild) :
    List (StackSys w) → thread_info w → thread_info w × List (BitVec w)
  | [], info => (info, [])
  | sys :: syss, info =>
    let r := CStackSize b sys info
    let rest := CStackSize_run b syss r.1
    (rest.1, r.2 :: rest.2)

theorem CStackSize_returns_field (b : StackBuild) (hb : b.o_plmt = true) (sys : StackSys w)
    (info : thread_info w) : (CStackSize b sys info).2 = (CStackSize b sys info).1.c_stack_size := by
  unfold CStackSize
  split_ifs <;> rfl

theorem CStackSize_cached (b : StackBuild) (sys : StackSys w) {info : thread_info w}
    (h : info.c_stack_size ≠ 0) :
    CStackSize b sys info = (info, if b.o_plmt then info.c_stack_size else -1) := by
  unfold CStackSize
  cases b.o_plmt <;> simp only [if_pos h, Bool.false_eq_true, if_true, if_false]

theorem CStackSize_run_cached (b : StackBuild) :
    ∀ (syss : List (StackSys w)) {info : thread_info w}, info.c_stack_size ≠ 0 →
      CStackSize_run b syss info =
        (info, List.replicate syss.length (if b.o_plmt then info.c_stack_size else -1))
  | [], _, _ => rfl
  | sys :: syss, info, h => by
    simp only [CStackSize_run, CStackSize_cached b sys h, CStackSize_run_cached b syss h,
      List.length_cons, List.replicate_succ]

theorem CStackSize_run_no_plmt (b : StackBuild) (hb : b.o_plmt = false) :
    ∀ (syss : List (StackSys w)) (info : thread_info w),
      CStackSize_run b syss info = (info, List.replicate syss.length (-1))
  | [], _ => rfl
  | sys :: syss, info => by
    simp [CStackSize_run, CStackSize, hb, CStackSize_run_no_plmt b hb syss info,
      List.replicate_succ]

/-- The size the `pthread_getattr_np` block finds: the stack's size, `(size_t)-1` when the call
fails, and `0` in a build without it. -/
def thread_found (b : StackBuild) (sys : StackSys w) : BitVec w :=
  if b.have_pthread_getattr_np then
    match sys.getattr with
    | some (_, size) => size
    | none => -1
  else 0

/-- The size the `getrlimit` block finds: the limit, `(size_t)-1` when it cannot be read or is
unlimited or zero, and `0` in a build without `getrlimit`. -/
def main_found (b : StackBuild) (sys : StackSys w) : BitVec w :=
  if b.have_getrlimit then
    match sys.rlimit with
    | some cur => if cur ≠ RLIM_INFINITY w ∧ cur ≠ 0 then cur else -1
    | none => -1
  else 0

/-- The size the lookup of `CStackSize` finds on thread `pl_tid` with what the system returns. -/
def found_size (b : StackBuild) (sys : StackSys w) (pl_tid : Int) : BitVec w :=
  if pl_tid ≠ 1 then thread_found b sys else main_found b sys

theorem thread_stack_size_found (b : StackBuild) (sys : StackSys w) {info : thread_info w}
    (h0 : info.c_stack_size = 0) :
    (thread_stack_size b sys info).c_stack_size = thread_found b sys ∧
      (thread_stack_size b sys info).pl_tid = info.pl_tid := by
  unfold thread_stack_size thread_found
  split_ifs
  · rcases sys.getattr with _ | ⟨_, _⟩ <;> exact ⟨rfl, rfl⟩
  · exact ⟨h0, rfl⟩

theorem main_stack_size_found (b : StackBuild) (sys : StackSys w) {info : thread_info w}
    (h0 : info.c_stack_size = 0) :
    (main_stack_size b sys info).c_stack_size = main_found b sys ∧
      (main_stack_size b sys info).pl_tid = info.pl_tid := by
  unfold main_stack_size main_found
  split_ifs
  · rcases sys.rlimit with _ | cur
    · exact ⟨rfl, rfl⟩
    · dsimp only
      split_ifs <;> exact ⟨rfl, rfl⟩
  · exact ⟨h0, rfl⟩

/-- What successive calls return when the calls' lookups would find `found`, `kept` being the
size already recorded: `0` until the first nonzero size, which is returned from then on. -/
def settle (kept : BitVec w) : List (BitVec w) → List (BitVec w)
  | [] => []
  | f :: fs => if kept ≠ 0 then kept :: settle kept fs else f :: settle f fs

theorem settle_of_ne {kept : BitVec w} (h : kept ≠ 0) :
    ∀ fs : List (BitVec w), settle kept fs = List.replicate fs.length kept
  | [] => rfl
  | _ :: fs => by simp only [settle, if_pos h, settle_of_ne h fs, List.length_cons,
      List.replicate_succ]

/-- Returned sizes are `0` for a while and then the first nonzero size found, for good. -/
theorem settle_zero : ∀ fs : List (BitVec w), ∃ n ≤ fs.length,
    settle 0 fs = List.replicate n 0 ++ List.replicate (fs.length - n) (fs.getD n 0)
  | [] => ⟨0, le_rfl, rfl⟩
  | f :: fs => by
    by_cases hf : f = 0
    · obtain ⟨n, hn, h⟩ := settle_zero fs
      refine ⟨n + 1, by simp; omega, ?_⟩
      simp only [settle, ne_eq, not_true_eq_false, if_false, hf, h, List.length_cons,
        Nat.add_sub_add_right, List.getD_cons_succ, List.replicate_succ, List.cons_append]
    · refine ⟨0, Nat.zero_le _, ?_⟩
      simp only [settle, ne_eq, not_true_eq_false, if_false, settle_of_ne hf, List.length_cons,
        List.replicate_zero, List.nil_append, Nat.sub_zero, List.getD_cons_zero,
        List.replicate_succ]

/-- A call that finds no size recorded returns and records what its lookup finds, and keeps the
thread's id. -/
theorem CStackSize_lookup (b : StackBuild) (hb : b.o_plmt = true) (sys : StackSys w)
    {info : thread_info w} (h0 : info.c_stack_size = 0) :
    (CStackSize b sys info).2 = found_size b sys info.pl_tid ∧
      (CStackSize b sys info).1.c_stack_size = found_size b sys info.pl_tid ∧
      (CStackSize b sys info).1.pl_tid = info.pl_tid := by
  simp only [CStackSize, hb, h0, ne_eq, not_true_eq_false, if_false, if_true, found_size]
  split_ifs
  · obtain ⟨hsize, htid⟩ := main_stack_size_found b sys h0
    exact ⟨hsize, hsize, htid⟩
  · obtain ⟨hsize, htid⟩ := thread_stack_size_found b sys h0
    exact ⟨hsize, hsize, htid⟩

/-- Successive calls return what `settle` says of the sizes their lookups would find. -/
theorem CStackSize_run_eq (b : StackBuild) :
    ∀ (syss : List (StackSys w)) (info : thread_info w), (CStackSize_run b syss info).2 =
      if b.o_plmt then settle info.c_stack_size (syss.map fun sys => found_size b sys info.pl_tid)
      else List.replicate syss.length (-1)
  | [], _ => by split <;> rfl
  | sys :: syss, info => by
    cases hb : b.o_plmt
    · simp only [CStackSize_run_no_plmt b hb, Bool.false_eq_true, if_false]
    by_cases h0 : info.c_stack_size = 0
    · obtain ⟨hret, hsize, htid⟩ := CStackSize_lookup b hb sys h0
      have ih := CStackSize_run_eq b syss (CStackSize b sys info).1
      simp only [hb, if_true, hsize, htid] at ih
      simp only [CStackSize_run, ih, hret, if_true, List.map_cons, settle, h0, ne_eq,
        not_true_eq_false, if_false]
    · simp only [CStackSize_run_cached b _ h0, hb, if_true, List.map_cons, settle_of_ne h0,
        List.length_cons, List.length_map]

/-- Over any sequence of calls on one thread, `CStackSize` returns `(size_t)-1` every time without
`O_PLMT`; with it, the size already recorded every time when there is one, and otherwise `0` as
long as the lookups find `0` and then the first size found, `(size_t)-1` for a failed lookup, which
is kept in `info->c_stack_size` and never looked up again. -/
theorem CStackSize_run_settles (b : StackBuild) (syss : List (StackSys w)) (info : thread_info w) :
    (CStackSize_run b syss info).2 =
        (if b.o_plmt then settle info.c_stack_size (syss.map fun sys => found_size b sys info.pl_tid)
        else List.replicate syss.length (-1)) ∧
      (b.o_plmt = true → info.c_stack_size = 0 → ∃ n ≤ syss.length,
        (CStackSize_run b syss info).2 = List.replicate n 0 ++
          List.replicate (syss.length - n)
            ((syss.map fun sys => found_size b sys info.pl_tid).getD n 0)) := by
  refine ⟨CStackSize_run_eq b syss info, fun hb h0 => ?_⟩
  rw [CStackSize_run_eq, hb, if_pos rfl, h0]
  simpa only [List.length_map] using settle_zero (syss.map fun sys => found_size b sys info.pl_tid)

/-- Calls on a thread whose size is looked up after one that returned `0` and one that
returned `8 MiB`. -/
example : (CStackSize_run ⟨true, true, true⟩
    [⟨none, none, 0⟩, ⟨some (0x7000, 0x800000), none, 0⟩, ⟨none, none, 0⟩]
    ⟨2, 0, 0⟩ : thread_info 64 × List (BitVec 64)).2 = [-1, -1, -1] := by decide

end swipl.cstack
