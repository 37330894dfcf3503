import CStack.Basic

namespace swipl.cstack.plain

open swipl.cstack

/-- Where one invocation of the plain body of `next_btrace_id` is; each load and store of
`bt->current` is a step of its own. -/
inductive Pc
  /-- Not started. -/
  | start
  /-- `bt->current++` has loaded `read`; about to store `read+1`. -/
  | incr (read : Int)
  /-- Stored the increment, `current = read % SAVE_TRACES`; about to test
  `bt->current >= SAVE_TRACES`. -/
  | test (id : Int)
  /-- The test held; `bt->current %= SAVE_TRACES` is about to load `bt->current`. -/
  | mod_load (id : Int)
  /-- `bt->current %= SAVE_TRACES` loaded `read`; about to store its remainder. -/
  | mod_store (id : Int) (read : Int)
  /-- Returned `id`. -/
  | done (id : Int)
  deriving DecidableEq, Repr

/-- The cursor and every invocation's position. -/
structure State where
  current : Int
  pc : Nat → Pc

/-- No invocation started, the cursor at `c0`. -/
def init (c0 : Int) : State := { current := c0, pc := fun _ => .start }

@[simp] theorem init_current (c0 : Int) : (init c0).current = c0 := rfl

@[simp] theorem init_pc (c0 : Int) (t : Nat) : (init c0).pc t = .start := rfl

/-- One step of one invocation; any invocation may take the next step. -/
inductive Step : State → State → Prop
  | load {s : State} (t : Nat) (h : s.pc t = .start) :
      Step s { s with pc := Function.update s.pc t (.incr s.current) }
  | store_incr {s : State} (t : Nat) {read : Int} (h : s.pc t = .incr read) :
      Step s { current := read + 1,
               pc := Function.update s.pc t (.test (read.tmod SAVE_TRACES)) }
  | test_wrap {s : State} (t : Nat) {id : Int} (h : s.pc t = .test id)
      (hge : SAVE_TRACES ≤ s.current) :
      Step s { s with pc := Function.update s.pc t (.mod_load id) }
  | test_done {s : State} (t : Nat) {id : Int} (h : s.pc t = .test id)
      (hlt : s.current < SAVE_TRACES) :
      Step s { s with pc := Function.update s.pc t (.done id) }
  | mod_load {s : State} (t : Nat) {id : Int} (h : s.pc t = .mod_load id) :
      Step s { s with pc := Function.update s.pc t (.mod_store id s.current) }
  | mod_store {s : State} (t : Nat) {id read : Int} (h : s.pc t = .mod_store id read) :
      Step s { current := read.tmod SAVE_TRACES, pc := Function.update s.pc t (.done id) }

/-- The states some interleaving reaches from `init c0`. -/
inductive Reachable (c0 : Int) : State → Prop
  | init : Reachable c0 (init c0)
  | step {s s' : State} : Reachable c0 s → Step s s' → Reachable c0 s'

/-- The next step of invocation `t`, which the state determines; `none` once it has returned. -/
def step? (s : State) (t : Nat) : Option State :=
  match s.pc t with
  | .start => some { s with pc := Function.update s.pc t (.incr s.current) }
  | .incr read =>
    some { current := read + 1, pc := Function.update s.pc t (.test (read.tmod SAVE_TRACES)) }
  | .test id =>
    if SAVE_TRACES ≤ s.current then some { s with pc := Function.update s.pc t (.mod_load id) }
    else some { s with pc := Function.update s.pc t (.done id) }
  | .mod_load id => some { s with pc := Function.update s.pc t (.mod_store id s.current) }
  | .mod_store id read =>
    some { current := read.tmod SAVE_TRACES, pc := Function.update s.pc t (.done id) }
  | .done _ => none

theorem step?_sound {s s' : State} {t : Nat} (h : step? s t = some s') : Step s s' := by
  unfold step? at h
  split at h
  · cases h; exact .load t ‹_›
  · cases h; exact .store_incr t ‹_›
  · split at h <;> cases h
    · exact .test_wrap t ‹_› ‹_›
    · exact .test_done t ‹_› (Int.not_le.mp ‹_›)
  · cases h; exact .mod_load t ‹_›
  · cases h; exact .mod_store t ‹_›
  · cases h

theorem Reachable.run? {c0 : Int} {s s' : State} {ts : List Nat} (hs : Reachable c0 s)
    (h : run? step? s ts = some s') : Reachable c0 s' :=
  run?_induct (Reachable c0) (fun hs h => hs.step (step?_sound h)) hs h

/-- What an invocation holds is never negative, and an id it holds is a slot. -/
def Pc.Sound : Pc → Prop
  | .start => True
  | .incr read => 0 ≤ read
  | .test id | .mod_load id | .done id => ValidCursor id
  | .mod_store id read => ValidCursor id ∧ 0 ≤ read

/-- Between storing its increment and finishing: the invocation that will still reduce the
cursor. -/
def Pc.Reducing : Pc → Prop
  | .test _ | .mod_load _ | .mod_store _ _ => True
  | _ => False

/-- Started and not returned. -/
def Pc.InProgress : Pc → Prop
  | .start | .done _ => False
  | _ => True

/-- The cursor is never negative, every invocation is sound, and a cursor at or past
`SAVE_TRACES` has an invocation that will still reduce it. -/
structure Inv (s : State) : Prop where
  nonneg : 0 ≤ s.current
  sound : ∀ t, (s.pc t).Sound
  pending : SAVE_TRACES ≤ s.current → ∃ t, (s.pc t).Reducing

theorem tmod_valid {x : Int} (hx : 0 ≤ x) : ValidCursor (x.tmod SAVE_TRACES) := by
  rw [Int.tmod_eq_emod hx (by decide)]
  unfold ValidCursor
  rw [SAVE_TRACES_eq]
  omega

theorem inv_init {c0 : Int} (h0 : ValidCursor c0) : Inv (init c0) where
  nonneg := h0.1
  sound _ := trivial
  pending h := absurd h (Int.not_le.mpr h0.2)

theorem sound_update {pc : Nat → Pc} (h : ∀ t, (pc t).Sound) {t : Nat} {p : Pc} (hp : p.Sound) :
    ∀ u, (Function.update pc t p u).Sound := by
  intro u
  by_cases hu : u = t
  · subst hu; simpa using hp
  · simpa [Function.update_noteq hu] using h u

theorem Inv.step {s s' : State} (h : Inv s) (hstep : Step s s') : Inv s' := by
  have hsound := h.sound
  cases hstep with
  | load t ht =>
    refine ⟨h.nonneg, sound_update hsound h.nonneg, fun hge => ?_⟩
    obtain ⟨u, hu⟩ := h.pending hge
    have hut : u ≠ t := by rintro rfl; rw [ht] at hu; exact hu
    exact ⟨u, show (Function.update s.pc t _ u).Reducing by rwa [Function.update_noteq hut]⟩
  | @store_incr t read ht =>
    have hread : 0 ≤ read := by simpa [ht, Pc.Sound] using hsound t
    exact ⟨show 0 ≤ read + 1 by omega, sound_update hsound (tmod_valid hread), fun _ => ⟨t, by simp [Pc.Reducing]⟩⟩
  | @test_wrap t id ht hge =>
    have hid : ValidCursor id := by simpa [ht, Pc.Sound] using hsound t
    exact ⟨h.nonneg, sound_update hsound hid, fun _ => ⟨t, by simp [Pc.Reducing]⟩⟩
  | @test_done t id ht hlt =>
    have hid : ValidCursor id := by simpa [ht, Pc.Sound] using hsound t
    exact ⟨h.nonneg, sound_update hsound hid, fun hge => absurd hge (Int.not_le.mpr hlt)⟩
  | @mod_load t id ht =>
    have hid : ValidCursor id := by simpa [ht, Pc.Sound] using hsound t
    exact ⟨h.nonneg, sound_update hsound ⟨hid, h.nonneg⟩, fun _ => ⟨t, by simp [Pc.Reducing]⟩⟩
  | @mod_store t id read ht =>
    have hsnd : ValidCursor id ∧ 0 ≤ read := by simpa [ht, Pc.Sound] using hsound t
    have hmod := tmod_valid hsnd.2
    exact ⟨hmod.1, sound_update hsound hsnd.1, fun hge => absurd hge (Int.not_le.mpr hmod.2)⟩

theorem Reachable.inv {c0 : Int} (h0 : ValidCursor c0) {s : State} (h : Reachable c0 s) :
    Inv s := by
  induction h with
  | init => exact inv_init h0
  | step _ hstep ih => exact ih.step hstep

/-- An invocation at the test runs alone to its return, the others staying where they are. -/
theorem Reachable.finish_test {c0 : Int} {s : State} (hs : Reachable c0 s) {t : Nat} {id : Int}
    (ht : s.pc t = .test id) :
    ∃ s', Reachable c0 s' ∧ s'.pc t = .done id ∧ ∀ u, u ≠ t → s'.pc u = s.pc u := by
  by_cases hlt : s.current < SAVE_TRACES
  · exact ⟨_, hs.step (.test_done t ht hlt), by simp, fun u hu => Function.update_noteq hu _ _⟩
  · have h1 := hs.step (.test_wrap t ht (Int.not_lt.mp hlt))
    have h2 := h1.step (.mod_load t (Function.update_same _ _ _))
    have h3 := h2.step (.mod_store t (Function.update_same _ _ _))
    exact ⟨_, h3, by simp, fun u hu => by simp [Function.update_noteq hu]⟩

/-- Two invocations that load the cursor before either stores its increment return the same
id: from any valid cursor some interleaving gives one slot to two callers. -/
theorem Reachable.collide {c0 : Int} :
    ∃ s, Reachable c0 s ∧ s.pc 0 = .done (c0.tmod SAVE_TRACES) ∧
      s.pc 1 = .done (c0.tmod SAVE_TRACES) := by
  have h1 := (@Reachable.init c0).step (.load 0 rfl)
  have h2 := h1.step (.load 1 rfl)
  have h3 := h2.step (@Step.store_incr _ 0 c0 (by simp))
  have h4 := h3.step (@Step.store_incr _ 1 c0 (by simp))
  obtain ⟨s5, h5, hpc0, hrest⟩ := @Reachable.finish_test _ _ h4 0 (c0.tmod SAVE_TRACES) (by simp)
  obtain ⟨s6, h6, hpc1, hrest'⟩ :=
    @Reachable.finish_test _ _ h5 1 (c0.tmod SAVE_TRACES) (by rw [hrest 1 (by decide)]; simp)
  exact ⟨s6, h6, by rw [hrest' 0 (by decide), hpc0], hpc1⟩

/-- From a cursor of `SAVE_TRACES - 1`, an invocation that has stored its increment leaves the
cursor at `SAVE_TRACES` until its test. -/
theorem Reachable.overshoot :
    ∃ s, Reachable ((SAVE_TRACES : Int) - 1) s ∧ s.current = SAVE_TRACES ∧
      s.pc 0 = .test ((SAVE_TRACES : Int) - 1) :=
  ⟨_, (Reachable.init.step (.load 0 rfl)).step (@Step.store_incr _ 0 (SAVE_TRACES - 1) (by simp)),
    by simp, by simp; rfl⟩

theorem Pc.Reducing.inProgress {p : Pc} (h : p.Reducing) : p.InProgress := by
  cases p <;> trivial

/-- With the plain body, from a valid cursor and under any interleaving of any number of
invocations, the cursor is never negative, every returned id is a slot, and when no invocation
is in progress the cursor is a slot again; yet two invocations may return the same id. -/
theorem next_btrace_id_plain_bounds {c0 : Int} (h0 : ValidCursor c0) :
    (∀ s, Reachable c0 s →
      0 ≤ s.current ∧ (∀ t id, s.pc t = .done id → ValidCursor id) ∧
      ((∀ t, ¬ (s.pc t).InProgress) → ValidCursor s.current)) ∧
    ∃ s id, Reachable c0 s ∧ s.pc 0 = .done id ∧ s.pc 1 = .done id := by
  refine ⟨fun s hs => ?_, ?_⟩
  · have h := hs.inv h0
    refine ⟨h.nonneg, fun t id ht => by simpa [ht, Pc.Sound] using h.sound t, fun hidle => ?_⟩
    refine ⟨h.nonneg, Int.not_le.mp fun hge => ?_⟩
    obtain ⟨t, ht⟩ := h.pending hge
    exact hidle t ht.inProgress
  · obtain ⟨s, hs, h0, h1⟩ := @Reachable.collide c0
    exact ⟨s, _, hs, h0, h1⟩

theorem next_btrace_id_plain_bounds_zero :
    ValidCursor 0 ∧
    (∀ s, Reachable 0 s →
      0 ≤ s.current ∧ (∀ t id, s.pc t = .done id → ValidCursor id) ∧
      ((∀ t, ¬ (s.pc t).InProgress) → ValidCursor s.current)) ∧
    ∃ s id, Reachable 0 s ∧ s.pc 0 = .done id ∧ s.pc 1 = .done id :=
  ⟨by decide, next_btrace_id_plain_bounds (by decide)⟩

end swipl.cstack.plain
