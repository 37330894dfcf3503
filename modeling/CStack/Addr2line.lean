import Mathlib.Data.List.Basic
import Mathlib.Logic.Function.Basic
import Mathlib.Tactic.IntervalCases

namespace swipl.cstack.glibc

/-- `sep`, the text `"() at "`, as bytes. -/
def sep : List UInt8 := [40, 41, 32, 97, 116, 32]

/-- `'\n'`. -/
def newline : UInt8 := 10

/-- `' '`. -/
def space : UInt8 := 32

/-- `'('`. -/
def lparen : UInt8 := 40

/-- `')'`. -/
def rparen : UInt8 := 41

theorem sep_length : sep.length = 6 := rfl

/-- The stores of `strcpy(o, sep)`: the six bytes of `sep`, then its terminator. -/
def strcpy_sep (o : Nat) : List (Nat × UInt8) :=
  (sep ++ [0]).enum.map fun (p : Nat × UInt8) => (o + p.1, p.2)

/-- What the read loop of `addr2line` does with one byte. -/
inductive Act
  /-- `*o++ = c;` -/
  | copy
  /-- `if ( o+strlen(sep) < ebuf ) { strcpy(o, sep); o += strlen(sep); }` -/
  | sep
  /-- Nothing is stored. -/
  | skip
  /-- `break;` -/
  | stop
  deriving DecidableEq, Repr

/-- The loop body without `__APPLE__`: every newline is counted (`nl++`), the first stores `sep`,
and other bytes are copied. -/
def addr2line_step (nl : Nat) (c : UInt8) : Act × Nat :=
  if c = newline then (if nl + 1 = 1 then .sep else .skip, nl + 1) else (.copy, nl)

/-- The loop body under `__APPLE__`: in field 0 copy the function name and store `sep` at the
first space; in fields 1 and 2 skip up to two `(`; from field 3 copy up to `)`. -/
def atos_step (field : Nat) (c : UInt8) : Act × Nat :=
  if field = 0 then
    if c = space then (.sep, field + 1) else (.copy, field)
  else if field < 3 then (.skip, if c = lparen then field + 1 else field)
  else if c = rparen then (.stop, field) else (.copy, field)

variable {S : Type}

/-- `while((c=fgetc(fd)) != EOF && o<ebuf) { ... }` from output offset `o` in loop state `s`, on
the bytes the helper still writes before `EOF`. It returns the final `o` and the stores into
`buf`, in order, as (offset, byte). -/
def read_loop (step : S → UInt8 → Act × S) (ebuf : Nat) :
    Nat → S → List UInt8 → Nat × List (Nat × UInt8)
  | o, _, [] => (o, [])
  | o, s, c :: rest =>
    if o < ebuf then
      match step s c with
      | (.copy, s') => let r := read_loop step ebuf (o + 1) s' rest; (r.1, (o, c) :: r.2)
      | (.sep, s') =>
        if o + sep.length < ebuf then
          let r := read_loop step ebuf (o + sep.length) s' rest; (r.1, strcpy_sep o ++ r.2)
        else read_loop step ebuf o s' rest
      | (.skip, s') => read_loop step ebuf o s' rest
      | (.stop, _) => (o, [])
    else (o, [])

/-- `MAXCMD`: the size of the `cmd` array of `addr2line`. -/
def MAXCMD : Nat := 1024

/-- `snprintf(cmd, size, ADDR2LINE_CMD, fname, offset)` into `char cmd[MAXCMD]`, `text` being the
whole formatted command: it stores the first `size - 1` bytes of `text` and a terminator, that is
`min (len + 1) size` bytes, and returns `len`; `none` when those stores run past the end of
`cmd`. -/
def snprintf_cmd (text : String) (size : Nat) : Option Nat :=
  if min (text.utf8ByteSize + 1) size ≤ MAXCMD then some text.utf8ByteSize else none

/-- The `popen` branch of `addr2line` on the bytes the helper writes before `EOF`: the read loop
from the start of `buf`, then `*o = '\0'; return o > buf;`. -/
def read_reply (apple : Bool) (bytes : List UInt8) (size : Nat) : Bool × List (Nat × UInt8) :=
  let r := if apple then read_loop atos_step (size - 1) 0 0 bytes
    else read_loop addr2line_step (size - 1) 0 0 bytes
  (decide (0 < r.1), r.2 ++ [(r.1, 0)])

/-- `addr2line(fname, offset, buf, size)`, `cmd` being the formatted `ADDR2LINE_CMD` and `reply`
what `popen` yields (`none` when it fails), as the bytes before `EOF`. It returns the result and
the stores into `buf`, or `none` when `snprintf` runs past the end of `cmd`. -/
def addr2line (apple : Bool) (cmd : String) (reply : Option (List UInt8)) (size : Nat) :
    Option (Bool × List (Nat × UInt8)) :=
  (snprintf_cmd cmd size).map fun len =>
    if len < size then
      match reply with
      | none => (false, [])
      | some bytes => read_reply apple bytes size
    else (false, [])

/-- With `size` at most `MAXCMD`, as for the caller's `buf[512]`, `snprintf` stays inside `cmd`. -/
theorem addr2line_isSome (apple : Bool) (cmd : String) (reply : Option (List UInt8)) {size : Nat}
    (h : size ≤ MAXCMD) : (addr2line apple cmd reply size).isSome := by
  simp only [addr2line, snprintf_cmd, Option.isSome_map']
  rw [if_pos (le_trans (Nat.min_le_right _ _) h)]
  rfl

/-- A command that fits `buf` and `cmd` is run and its reply read. -/
theorem addr2line_of_fits (apple : Bool) {cmd : String} (bytes : List UInt8) {size : Nat}
    (hcmd : cmd.utf8ByteSize < size) (hmax : cmd.utf8ByteSize < MAXCMD) :
    addr2line apple cmd (some bytes) size = some (read_reply apple bytes size) := by
  simp only [addr2line, snprintf_cmd, if_pos (le_trans (Nat.min_le_left _ _) hmax),
    Option.map_some', if_pos hcmd]

/-- The buffer after the stores `ws`. -/
def store (ws : List (Nat × UInt8)) (buf : Nat → UInt8) : Nat → UInt8 :=
  ws.foldl (fun b w => Function.update b w.1 w.2) buf

theorem store_append (ws ws' : List (Nat × UInt8)) (buf : Nat → UInt8) :
    store (ws ++ ws') buf = store ws' (store ws buf) := by
  simp [store, List.foldl_append]

theorem store_of_not_mem {ws : List (Nat × UInt8)} {i : Nat} (hi : ∀ w ∈ ws, w.1 ≠ i)
    (buf : Nat → UInt8) : store ws buf i = buf i := by
  induction ws generalizing buf with
  | nil => rfl
  | cons w ws ih =>
    simp only [List.mem_cons, forall_eq_or_imp] at hi
    simp only [store, List.foldl_cons] at ih ⊢
    rw [ih hi.2, Function.update_noteq (Ne.symm hi.1)]

/-- The reply text with room for all of it: what the loop stores when `buf` never fills. -/
def emit (step : S → UInt8 → Act × S) : S → List UInt8 → List UInt8
  | _, [] => []
  | s, c :: rest =>
    match step s c with
    | (.copy, s') => c :: emit step s' rest
    | (.sep, s') => sep ++ emit step s' rest
    | (.skip, s') => emit step s' rest
    | (.stop, _) => []

theorem strcpy_sep_eq (o : Nat) : strcpy_sep o =
    [(o, 40), (o + 1, 41), (o + 2, 32), (o + 3, 97), (o + 4, 116), (o + 5, 32), (o + 6, 0)] :=
  rfl

theorem mem_strcpy_sep {o : Nat} {w : Nat × UInt8} (hw : w ∈ strcpy_sep o) :
    o ≤ w.1 ∧ w.1 ≤ o + 6 := by
  simp only [strcpy_sep_eq, List.mem_cons, List.mem_singleton, List.not_mem_nil, or_false] at hw
  rcases hw with rfl | rfl | rfl | rfl | rfl | rfl | rfl <;> simp

theorem strcpy_sep_covers {o i : Nat} (h1 : o ≤ i) (h2 : i < o + 6) :
    ∃ b, (i, b) ∈ strcpy_sep o := by
  obtain ⟨k, rfl⟩ : ∃ k, i = o + k := ⟨i - o, by omega⟩
  have hk : k < 6 := by omega
  interval_cases k <;> simp [strcpy_sep_eq]

theorem store_strcpy_sep (o : Nat) (buf : Nat → UInt8) {k : Nat} (hk : k < sep.length) :
    store (strcpy_sep o) buf (o + k) = sep[k] := by
  rw [sep_length] at hk
  interval_cases k <;> simp [store, strcpy_sep_eq, Function.update_apply, sep]

private theorem bounds_append {ebuf o o' : Nat} {pre : List (Nat × UInt8)}
    {r : Nat × List (Nat × UInt8)} (hoo : o ≤ o') (hpre : ∀ w ∈ pre, o ≤ w.1 ∧ w.1 < ebuf)
    (hcov : ∀ i, o ≤ i → i < o' → ∃ b, (i, b) ∈ pre)
    (hr : o' ≤ r.1 ∧ r.1 ≤ ebuf ∧ (∀ w ∈ r.2, o' ≤ w.1 ∧ w.1 < ebuf) ∧
      ∀ i, o' ≤ i → i < r.1 → ∃ b, (i, b) ∈ r.2) :
    o ≤ r.1 ∧ r.1 ≤ ebuf ∧ (∀ w ∈ pre ++ r.2, o ≤ w.1 ∧ w.1 < ebuf) ∧
      ∀ i, o ≤ i → i < r.1 → ∃ b, (i, b) ∈ pre ++ r.2 := by
  obtain ⟨h1, h2, h3, h4⟩ := hr
  refine ⟨by omega, h2, fun w hw => ?_, fun i hi hir => ?_⟩
  · rcases List.mem_append.mp hw with hw | hw
    · exact hpre w hw
    · exact ⟨by have := (h3 w hw).1; omega, (h3 w hw).2⟩
  · by_cases hlo : i < o'
    · obtain ⟨b, hb⟩ := hcov i hi hlo
      exact ⟨b, List.mem_append_left _ hb⟩
    · obtain ⟨b, hb⟩ := h4 i (by omega) hir
      exact ⟨b, List.mem_append_right _ hb⟩

/-- The loop's stores lie between its start offset and `ebuf`, and every offset it moves past was
stored. -/
theorem read_loop_bounds (step : S → UInt8 → Act × S) (ebuf : Nat) :
    ∀ (bytes : List UInt8) (o : Nat) (s : S), o ≤ ebuf →
      let r := read_loop step ebuf o s bytes
      o ≤ r.1 ∧ r.1 ≤ ebuf ∧ (∀ w ∈ r.2, o ≤ w.1 ∧ w.1 < ebuf) ∧
        ∀ i, o ≤ i → i < r.1 → ∃ b, (i, b) ∈ r.2
  | [], o, s, h => by simp [read_loop, h]
  | c :: rest, o, s, h => by
    simp only [read_loop]
    split
    · rename_i hlt
      split
      · rename_i s' _
        exact @bounds_append ebuf o (o + 1) [(o, c)] _ (Nat.le_succ o)
          (by simpa using hlt) (fun i hi hir => ⟨c, by simp; omega⟩)
          (read_loop_bounds step ebuf rest (o + 1) s' hlt)
      · rename_i s' _
        split
        · rename_i hfit
          rw [sep_length] at hfit ⊢
          exact bounds_append (by omega) (fun w hw => by have := mem_strcpy_sep hw; omega)
            (fun i hi hir => strcpy_sep_covers hi hir)
            (read_loop_bounds step ebuf rest (o + 6) s' (by omega))
        · exact read_loop_bounds step ebuf rest o s' h
      · rename_i s' _
        exact read_loop_bounds step ebuf rest o s' h
      · simp [h]
    · simp [h]

private theorem emit_append {o : Nat} {pre : List (Nat × UInt8)} {text rest : List UInt8}
    {r : Nat × List (Nat × UInt8)} {buf : Nat → UInt8}
    (hpre : ∀ i (hi : i < text.length), store pre buf (o + i) = text[i])
    (hfar : ∀ w ∈ r.2, o + text.length ≤ w.1)
    (hr : r.1 = o + text.length + rest.length ∧ ∀ i (hi : i < rest.length),
      store r.2 (store pre buf) (o + text.length + i) = rest[i]) :
    r.1 = o + (text ++ rest).length ∧
      ∀ i (hi : i < (text ++ rest).length), store (pre ++ r.2) buf (o + i) = (text ++ rest)[i] := by
  refine ⟨by rw [hr.1, List.length_append]; omega, fun i hi => ?_⟩
  rw [store_append]
  by_cases hlt : i < text.length
  · rw [store_of_not_mem (fun w hw => by have := hfar w hw; omega), hpre i hlt,
      List.getElem_append_left hlt]
  · rw [List.length_append] at hi
    rw [List.getElem_append_right (by omega), ← hr.2 (i - text.length) (by omega)]
    congr 1
    omega

/-- When the whole reply text fits before `ebuf`, the loop stores exactly that text from `o` on
and stops right after it. -/
theorem read_loop_emit (step : S → UInt8 → Act × S) (ebuf : Nat) :
    ∀ (bytes : List UInt8) (o : Nat) (s : S) (buf : Nat → UInt8),
      o + (emit step s bytes).length < ebuf →
      (read_loop step ebuf o s bytes).1 = o + (emit step s bytes).length ∧
        ∀ i (hi : i < (emit step s bytes).length),
          store (read_loop step ebuf o s bytes).2 buf (o + i) = (emit step s bytes)[i]
  | [], o, s, buf, _ => by simp [read_loop, emit]
  | c :: rest, o, s, buf, hfit => by
    have hlt : o < ebuf := by omega
    rcases hstep : step s c with ⟨act, s'⟩
    cases act with
    | copy =>
      simp only [emit, hstep, List.length_cons] at hfit ⊢
      simp only [read_loop, if_pos hlt, hstep]
      exact @emit_append o [(o, c)] [c] _ _ buf (fun i hi => by simp at hi; subst hi; simp [store])
        (fun w hw => (read_loop_bounds step ebuf rest (o + 1) s' (by omega)).2.2.1 w hw |>.1)
        (read_loop_emit step ebuf rest (o + 1) s' _ (by omega))
    | sep =>
      simp only [emit, hstep] at hfit ⊢
      rw [List.length_append, sep_length] at hfit
      simp only [read_loop, if_pos hlt, hstep, sep_length, if_pos (by omega : o + 6 < ebuf)]
      exact emit_append (fun i hi => store_strcpy_sep o buf hi)
        (fun w hw => by
          have := (read_loop_bounds step ebuf rest (o + 6) s' (by omega)).2.2.1 w hw
          rw [sep_length]; omega)
        (by simpa only [sep_length] using read_loop_emit step ebuf rest (o + 6) s' _ (by omega))
    | skip =>
      simp only [emit, hstep] at hfit ⊢
      simp only [read_loop, if_pos hlt, hstep]
      exact read_loop_emit step ebuf rest o s' buf hfit
    | stop => simp [read_loop, emit, hstep, hlt]

/-- The bytes after the first `c` in `l`, none if there is none. -/
def after (c : UInt8) (l : List UInt8) : List UInt8 := (l.dropWhile (· != c)).drop 1

/-- The documented reading of an `addr2line -fe` reply: its first line, then `sep` if there is a
newline, then the rest with every newline removed. -/
def addr2line_text (bytes : List UInt8) : List UInt8 :=
  bytes.takeWhile (· != newline) ++
    match bytes.dropWhile (· != newline) with
    | [] => []
    | _ :: rest => sep ++ rest.filter (· != newline)

/-- The documented reading of an `atos` reply: the text before the first space, then `sep` if
there is a space, then what follows the second `(` after it, up to the next `)` or the end. -/
def atos_text (bytes : List UInt8) : List UInt8 :=
  bytes.takeWhile (· != space) ++
    match bytes.dropWhile (· != space) with
    | [] => []
    | _ :: rest => sep ++ (after lparen (after lparen rest)).takeWhile (· != rparen)

/-- The reading of the reply for the helper the build uses. -/
def reply_text (apple : Bool) (bytes : List UInt8) : List UInt8 :=
  if apple then atos_text bytes else addr2line_text bytes

theorem emit_addr2line_of_pos :
    ∀ {nl : Nat} (bytes : List UInt8), 0 < nl →
      emit addr2line_step nl bytes = bytes.filter (· != newline)
  | _, [], _ => rfl
  | nl, c :: rest, h => by
    by_cases hc : c = newline
    · simp [emit, addr2line_step, hc, emit_addr2line_of_pos rest (Nat.succ_pos nl),
        show nl + 1 ≠ 1 by omega]
    · simp [emit, addr2line_step, hc, emit_addr2line_of_pos rest h]

theorem emit_addr2line (bytes : List UInt8) :
    emit addr2line_step 0 bytes = addr2line_text bytes := by
  induction bytes with
  | nil => rfl
  | cons c rest ih =>
    by_cases hc : c = newline
    · simp [emit, addr2line_step, hc, addr2line_text, emit_addr2line_of_pos rest Nat.one_pos]
    · simp only [addr2line_text] at ih
      simp [emit, addr2line_step, hc, addr2line_text, ih]

theorem emit_atos_of_three :
    ∀ {field : Nat} (bytes : List UInt8), 3 ≤ field →
      emit atos_step field bytes = bytes.takeWhile (· != rparen)
  | _, [], _ => rfl
  | field, c :: rest, h => by
    by_cases hc : c = rparen
    · simp [emit, atos_step, hc, show field ≠ 0 by omega, show ¬ field < 3 by omega]
    · simp [emit, atos_step, hc, show field ≠ 0 by omega, show ¬ field < 3 by omega,
        emit_atos_of_three rest h]

/-- Between the space and the function's source text the loop skips up to two `(`. -/
theorem emit_atos_skip :
    ∀ {field : Nat} (bytes : List UInt8), field = 1 ∨ field = 2 →
      emit atos_step field bytes = emit atos_step (field + 1) (after lparen bytes)
  | _, [], _ => by cases ‹_ = 1 ∨ _› <;> subst_vars <;> rfl
  | field, c :: rest, h => by
    have h0 : field ≠ 0 := by omega
    have h3 : field < 3 := by omega
    by_cases hc : c = lparen
    · simp [emit, atos_step, hc, h0, h3, after]
    · simp only [emit, atos_step, h0, h3, hc, if_false, if_true]
      rw [emit_atos_skip rest h]
      simp [after, hc]

theorem emit_atos (bytes : List UInt8) : emit atos_step 0 bytes = atos_text bytes := by
  induction bytes with
  | nil => rfl
  | cons c rest ih =>
    by_cases hc : c = space
    · simp [emit, atos_step, hc, atos_text, emit_atos_skip rest (Or.inl rfl),
        emit_atos_skip _ (Or.inr rfl), emit_atos_of_three _ (le_refl 3)]
    · simp only [atos_text] at ih
      simp [emit, atos_step, hc, atos_text, ih]

private theorem read_loop_terminated (step : S → UInt8 → Act × S) (s : S) (bytes : List UInt8)
    {size : Nat} (hsize : 1 ≤ size) (buf : Nat → UInt8) :
    let r := read_loop step (size - 1) 0 s bytes
    r.1 < size ∧ (∀ w ∈ r.2 ++ [(r.1, 0)], w.1 < size) ∧ store (r.2 ++ [(r.1, 0)]) buf r.1 = 0 ∧
      (∀ i < r.1, ∃ b, (i, b) ∈ r.2 ++ [(r.1, 0)]) ∧
      ((emit step s bytes).length < size - 1 → r.1 = (emit step s bytes).length ∧
        ∀ i (hi : i < (emit step s bytes).length),
          store (r.2 ++ [(r.1, 0)]) buf i = (emit step s bytes)[i]) := by
  obtain ⟨-, h2, h3, h4⟩ := read_loop_bounds step (size - 1) bytes 0 s (Nat.zero_le _)
  refine ⟨by omega, fun w hw => ?_, by simp [store_append, store], fun i hi => ?_, fun hfit => ?_⟩
  · rcases List.mem_append.mp hw with hw | hw
    · have := h3 w hw
      omega
    · simp only [List.mem_singleton] at hw
      subst hw
      simp only
      omega
  · obtain ⟨b, hb⟩ := h4 i (Nat.zero_le _) hi
    exact ⟨b, List.mem_append_left _ hb⟩
  · obtain ⟨e1, e2⟩ := read_loop_emit step (size - 1) bytes 0 s buf (by omega)
    refine ⟨by simpa using e1, fun i hi => ?_⟩
    rw [store_append]
    simp only [store, List.foldl_cons, List.foldl_nil]
    rw [Function.update_noteq (by simp at e1; omega)]
    simpa using e2 i hi

/-- What `addr2line` leaves once the helper ran, as the result `r` and the stores over `buf`:
every store is below `size`; the text ends with a terminator at an offset `o` below `size`,
every byte before it having been stored; the result is whether `o > 0`; and when the documented
reading of the reply is shorter than `size - 1` bytes, that reading is exactly what was stored. -/
def StoresReply (apple : Bool) (bytes : List UInt8) (size : Nat) (r : Bool × List (Nat × UInt8))
    (buf : Nat → UInt8) : Prop :=
  ∃ o < size, (∀ w ∈ r.2, w.1 < size) ∧ store r.2 buf o = 0 ∧
    (∀ i < o, ∃ b, (i, b) ∈ r.2) ∧ (r.1 = true ↔ 0 < o) ∧
    ((reply_text apple bytes).length < size - 1 → o = (reply_text apple bytes).length ∧
      ∀ i (hi : i < (reply_text apple bytes).length),
        store r.2 buf i = (reply_text apple bytes)[i])

/-- Whatever the helper replies, once it runs, on a command that fits both `buf` and `cmd`,
`addr2line` stores only inside `buf`, leaves it terminated, returns whether it stored a byte, and
stores the reply's reading when it fits. -/
theorem addr2line_reply (apple : Bool) (cmd : String) (bytes : List UInt8) {size : Nat}
    (hsize : 2 ≤ size) (hcmd : cmd.utf8ByteSize < size) (hmax : cmd.utf8ByteSize < MAXCMD)
    (buf : Nat → UInt8) :
    ∃ r, addr2line apple cmd (some bytes) size = some r ∧ StoresReply apple bytes size r buf := by
  refine ⟨_, addr2line_of_fits apple bytes hcmd hmax, ?_⟩
  cases apple with
  | false =>
    obtain ⟨h1, h2, h3, h4, h5⟩ :=
      read_loop_terminated addr2line_step 0 bytes (by omega : 1 ≤ size) buf
    simp only [StoresReply, reply_text, read_reply, Bool.false_eq_true, if_false,
      ← emit_addr2line, decide_eq_true_eq] at h5 ⊢
    exact ⟨_, h1, h2, h3, h4, Iff.rfl, h5⟩
  | true =>
    obtain ⟨h1, h2, h3, h4, h5⟩ :=
      read_loop_terminated atos_step 0 bytes (by omega : 1 ≤ size) buf
    simp only [StoresReply, reply_text, read_reply, if_true, ← emit_atos, decide_eq_true_eq] at h5 ⊢
    exact ⟨_, h1, h2, h3, h4, Iff.rfl, h5⟩

/-- The two-line reply `"f\nx.c:1\n"` in the 512-byte buffer of `print_trace`. -/
theorem addr2line_reply_two_lines :
    2 ≤ 512 ∧ "addr2line".utf8ByteSize < 512 ∧ "addr2line".utf8ByteSize < MAXCMD ∧
      ∃ r, addr2line false "addr2line" (some [102, 10, 120, 46, 99, 58, 49, 10]) 512 = some r ∧
        StoresReply false [102, 10, 120, 46, 99, 58, 49, 10] 512 r fun _ => 0 :=
  ⟨by decide, by decide, by decide,
    addr2line_reply false "addr2line" _ (by decide) (by decide) (by decide) _⟩

end swipl.cstack.glibc
