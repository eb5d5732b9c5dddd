import Mathlib
import LegacyBasic.Compile

/-!
Batches compiled by tasks that take turns in any order.  Every source has a task, which is started
in the order of the sources while a worker is free; the first failure is kept and calls off the
tasks that have not begun to compile.  Main statement: whatever the order of the steps, the tasks
come to their end, and what a batch yields does not depend on that order, but for which failure is
kept; compiling the sources one after the other is one of the orders.
-/

namespace LegacyBasic.Batch

/-- How far the task of a source has come. -/
inductive Phase where
  | waiting
  /-- It has been started and has not looked whether the batch is called off. -/
  | started
  | compiling
  /-- It is done, with a failure or without one, and has not told so. -/
  | returned (failure : Option Failure)
  /-- Its failure was kept, and it is about to call the others off. -/
  | cancelling
  | ended
deriving DecidableEq, Repr

/-- A task that has been started and has not ended occupies a worker. -/
def Phase.isRunning : Phase → Bool
  | waiting => false
  | ended => false
  | _ => true

/-- How many steps lead to a phase at most. -/
def Phase.rank : Phase → Nat
  | waiting => 0
  | started => 1
  | compiling => 2
  | returned _ => 3
  | cancelling => 4
  | ended => 5

/-- The tasks of a batch, and what they share. -/
structure Tasks where
  phases : List Phase
  /-- The places of the results, filled in as the sources are compiled. -/
  results : List (Option Compilation)
  /-- The first failure that was told. -/
  kept : Option Failure := none
  /-- Whether the batch is called off. -/
  cancelled : Bool := false
  /-- The sources that were taken up for compiling, by their number. -/
  compiled : List Nat := []
deriving Repr

namespace Tasks

/-- The tasks of sources before the first step; the caller may have called them off already. -/
def start (cancelled : Bool) (sources : List Source) : Tasks where
  phases := sources.map fun _ => .waiting
  results := sources.map fun _ => none
  cancelled := cancelled

/-- The tasks after a task has come to another phase. -/
def enter (tasks : Tasks) (index : Nat) (phase : Phase) : Tasks :=
  { tasks with phases := tasks.phases.set index phase }

/-- Whether a task may be started: those before it have been, and a worker is free.  Without a
positive number of workers there is no limit. -/
def admits (tasks : Tasks) (workers : Int) (index : Nat) : Bool :=
  (tasks.phases.take index).all (· ≠ .waiting) &&
    (workers ≤ 0 || (tasks.phases.countP Phase.isRunning : Int) < workers)

/-- The next step of a task, if it can take one. -/
def advance (style : Style) (workers : Int) (sources : List Source) (tasks : Tasks) (index : Nat) :
    Option Tasks :=
  match sources[index]?, tasks.phases[index]? with
  | some source, some phase =>
    match phase with
    | .waiting => if tasks.admits workers index then some (tasks.enter index .started) else none
    | .started =>
      if tasks.cancelled then some (tasks.enter index (.returned (some .cancelled)))
      else some { tasks.enter index .compiling with compiled := tasks.compiled ++ [index] }
    | .compiling =>
      match (source.compile style).2 with
      | .ok compilation =>
        some { tasks.enter index (.returned none) with
          results := tasks.results.set index (some compilation) }
      | .error fault => some (tasks.enter index (.returned (some (.source source.name fault))))
    | .returned none => some (tasks.enter index .ended)
    | .returned (some failure) =>
      match tasks.kept with
      | none => some { tasks.enter index .cancelling with kept := some failure }
      | some _ => some (tasks.enter index .ended)
    | .cancelling => some { tasks.enter index .ended with cancelled := true }
    | .ended => none
  | _, _ => none

/-- The tasks after the steps of a schedule, which tells whose turn it is each time. -/
def run (style : Style) (workers : Int) (sources : List Source) (tasks : Tasks)
    (schedule : List Nat) : Option Tasks :=
  schedule.foldlM (advance style workers sources) tasks

def IsComplete (tasks : Tasks) : Prop :=
  ∀ phase ∈ tasks.phases, phase = .ended

instance (tasks : Tasks) : Decidable tasks.IsComplete :=
  inferInstanceAs (Decidable (∀ phase ∈ tasks.phases, phase = .ended))

/-- What the batch yields once its tasks have ended. -/
def outcome (tasks : Tasks) : Except Failure (List (Option Compilation)) :=
  match tasks.kept with
  | some failure => .error failure
  | none => .ok tasks.results

@[simp] theorem start_phases_length (called : Bool) (sources : List Source) :
    (start called sources).phases.length = sources.length := by
  simp [start]

@[simp] theorem start_results_length (called : Bool) (sources : List Source) :
    (start called sources).results.length = sources.length := by
  simp [start]

variable {style : Style} {workers : Int} {sources : List Source} {tasks next last : Tasks}
  {index : Nat} {source : Source} {before after : Phase} {called : Bool}

/-- The steps there are, from a phase of the task to another: what each needs and what it leaves. -/
inductive Move (style : Style) (workers : Int) (tasks : Tasks) (index : Nat) (source : Source) :
    Phase → Phase → Tasks → Prop
  | start (hadmitted : tasks.admits workers index = true) :
      Move style workers tasks index source .waiting .started (tasks.enter index .started)
  | giveUp (hoff : tasks.cancelled = true) :
      Move style workers tasks index source .started (.returned (some .cancelled))
        (tasks.enter index (.returned (some .cancelled)))
  | compile (hon : tasks.cancelled = false) :
      Move style workers tasks index source .started .compiling
        { tasks.enter index .compiling with compiled := tasks.compiled ++ [index] }
  | deliver {compilation : Compilation} (hcompiles : (source.compile style).2 = .ok compilation) :
      Move style workers tasks index source .compiling (.returned none)
        { tasks.enter index (.returned none) with
          results := tasks.results.set index (some compilation) }
  | fail {fault : Fault} (hfails : (source.compile style).2 = .error fault) :
      Move style workers tasks index source .compiling
        (.returned (some (.source source.name fault)))
        (tasks.enter index (.returned (some (.source source.name fault))))
  | finish : Move style workers tasks index source (.returned none) .ended
      (tasks.enter index .ended)
  | keep {failure : Failure} (hfirst : tasks.kept = none) :
      Move style workers tasks index source (.returned (some failure)) .cancelling
        { tasks.enter index .cancelling with kept := some failure }
  | drop {failure : Failure} (hlater : tasks.kept ≠ none) :
      Move style workers tasks index source (.returned (some failure)) .ended
        (tasks.enter index .ended)
  | cancel : Move style workers tasks index source .cancelling .ended
      { tasks.enter index .ended with cancelled := true }

/-- A task's step is one of the moves from its phase. -/
theorem move_of_advance (hstep : advance style workers sources tasks index = some next) :
    ∃ source before after, sources[index]? = some source ∧ tasks.phases[index]? = some before ∧
      Move style workers tasks index source before after next := by
  unfold advance at hstep
  split at hstep
  case h_2 => cases hstep
  case h_1 source before hsource hphase =>
    suffices ∃ after, Move style workers tasks index source before after next by
      obtain ⟨after, hmove⟩ := this
      exact ⟨source, before, after, hsource, hphase, hmove⟩
    split at hstep
    · split at hstep
      · cases hstep; exact ⟨_, .start ‹_›⟩
      · cases hstep
    · split at hstep
      · cases hstep; exact ⟨_, .giveUp ‹_›⟩
      · cases hstep; exact ⟨_, .compile (by simp_all)⟩
    · split at hstep
      · cases hstep; exact ⟨_, .deliver ‹_›⟩
      · cases hstep; exact ⟨_, .fail ‹_›⟩
    · cases hstep; exact ⟨_, .finish⟩
    · split at hstep
      · cases hstep; exact ⟨_, .keep ‹_›⟩
      · cases hstep; exact ⟨_, .drop (by simp [*])⟩
    · cases hstep; exact ⟨_, .cancel⟩
    · cases hstep

/-- Every move from its phase is a step of the task. -/
theorem advance_of_move (hsource : sources[index]? = some source)
    (hphase : tasks.phases[index]? = some before)
    (hmove : Move style workers tasks index source before after next) :
    advance style workers sources tasks index = some next := by
  cases hmove with
  | start hadmitted => simp [advance, hsource, hphase, hadmitted]
  | giveUp hoff => simp [advance, hsource, hphase, hoff]
  | compile hon => simp [advance, hsource, hphase, hon]
  | deliver hcompiles => simp [advance, hsource, hphase, hcompiles]
  | fail hfails => simp [advance, hsource, hphase, hfails]
  | finish => simp [advance, hsource, hphase]
  | keep hfirst => simp [advance, hsource, hphase, hfirst]
  | drop hlater =>
    obtain ⟨failure, hkept⟩ := Option.ne_none_iff_exists'.1 hlater
    simp [advance, hsource, hphase, hkept]
  | cancel => simp [advance, hsource, hphase]

theorem Move.phases_eq (hmove : Move style workers tasks index source before after next) :
    next.phases = tasks.phases.set index after := by
  cases hmove <;> rfl

theorem Move.rank_lt (hmove : Move style workers tasks index source before after next) :
    before.rank < after.rank := by
  cases hmove <;> simp [Phase.rank]

/-- What a move leaves alone: the other tasks with their results, and what is decided for all. -/
structure Frame (tasks : Tasks) (index : Nat) (next : Tasks) : Prop where
  phases_length : next.phases.length = tasks.phases.length
  results_length : next.results.length = tasks.results.length
  phases : ∀ other, other ≠ index → next.phases[other]? = tasks.phases[other]?
  results : ∀ other, other ≠ index → next.results[other]? = tasks.results[other]?
  kept : ∀ failure, tasks.kept = some failure → next.kept = some failure
  cancelled : tasks.cancelled = true → next.cancelled = true
  compiled : ∀ other, other ∈ tasks.compiled → other ∈ next.compiled

theorem Move.frame (hmove : Move style workers tasks index source before after next) :
    Frame tasks index next := by
  refine ⟨?_, ?_, fun other hne => ?_, fun other hne => ?_, fun failure hkept => ?_, fun hoff => ?_,
    fun other hbegun => ?_⟩
  · cases hmove <;> simp [enter]
  · cases hmove <;> simp [enter]
  · cases hmove <;> simp [enter, List.getElem?_set_ne hne.symm]
  · cases hmove <;> simp [enter, List.getElem?_set_ne hne.symm]
  · cases hmove <;> simp_all [enter]
  · cases hmove <;> simp_all [enter]
  · cases hmove <;> simp_all [enter]

/-! ### What holds whatever the order of the steps -/

/-- The task's source compiled, and the result is in its place. -/
def Delivered (style : Style) (tasks : Tasks) (index : Nat) (source : Source) : Prop :=
  index ∈ tasks.compiled ∧ ∃ compilation, (source.compile style).2 = .ok compilation ∧
    tasks.results[index]? = some (some compilation)

/-- The failure is that of a source, met when it was compiled. -/
def Caused (style : Style) (tasks : Tasks) (index : Nat) (source : Source) (failure : Failure) :
    Prop :=
  index ∈ tasks.compiled ∧ ∃ fault, (source.compile style).2 = .error fault ∧
    failure = .source source.name fault

/-- What is known of a task by its phase. -/
def Knows (style : Style) (tasks : Tasks) (index : Nat) (source : Source) : Phase → Prop
  | .waiting => True
  | .started => True
  | .compiling => index ∈ tasks.compiled
  | .returned none => Delivered style tasks index source
  | .returned (some failure) =>
    (failure = .cancelled ∧ tasks.cancelled = true) ∨ Caused style tasks index source failure
  | .cancelling => tasks.kept ≠ none
  | .ended => Delivered style tasks index source ∨ tasks.kept ≠ none

/-- The invariant of a batch; `called` tells whether the caller had called it off. -/
structure Sound (style : Style) (sources : List Source) (called : Bool) (tasks : Tasks) : Prop where
  phases_length : tasks.phases.length = sources.length
  results_length : tasks.results.length = sources.length
  knows : ∀ index source phase, sources[index]? = some source →
    tasks.phases[index]? = some phase → Knows style tasks index source phase
  kept : ∀ failure, tasks.kept = some failure → (failure = .cancelled ∧ called = true) ∨
    ∃ index source, sources[index]? = some source ∧ Caused style tasks index source failure
  cancelled : tasks.cancelled = true → called = true ∨ tasks.kept ≠ none
  called : called = true → tasks.cancelled = true ∧ tasks.compiled = []

/-- What another task is known to have done stays so. -/
theorem Knows.of_frame {other : Nat} {phase : Phase} (hframe : Frame tasks index next)
    (hne : other ≠ index) (hknown : Knows style tasks other source phase) :
    Knows style next other source phase := by
  have hstays : tasks.kept ≠ none → next.kept ≠ none := by
    intro hkept
    obtain ⟨failure, hfailure⟩ := Option.ne_none_iff_exists'.1 hkept
    simp [hframe.kept failure hfailure]
  have hdelivered : Delivered style tasks other source → Delivered style next other source := by
    rintro ⟨hbegun, compilation, hcompiles, hplace⟩
    exact ⟨hframe.compiled other hbegun, compilation, hcompiles,
      by rw [hframe.results other hne, hplace]⟩
  cases phase with
  | waiting => trivial
  | started => trivial
  | compiling => exact hframe.compiled other hknown
  | returned failure =>
    cases failure with
    | none => exact hdelivered hknown
    | some failure =>
      rcases hknown with ⟨rfl, hoff⟩ | ⟨hbegun, hfault⟩
      · exact .inl ⟨rfl, hframe.cancelled hoff⟩
      · exact .inr ⟨hframe.compiled other hbegun, hfault⟩
  | cancelling => exact hstays hknown
  | ended => exact hknown.imp hdelivered hstays

/-- A move leaves its own task in a phase whose knowledge it has. -/
theorem Sound.knows_of_move (hsound : Sound style sources called tasks)
    (hsource : sources[index]? = some source) (hphase : tasks.phases[index]? = some before)
    (hmove : Move style workers tasks index source before after next) :
    Knows style next index source after := by
  have hknown := hsound.knows index source before hsource hphase
  cases hmove with
  | start hadmitted => trivial
  | giveUp hoff => exact .inl ⟨rfl, hoff⟩
  | compile hon => simp [Knows]
  | deliver hcompiles =>
    have hinside : index < tasks.results.length := by
      rw [hsound.results_length]
      exact (List.getElem?_eq_some_iff.1 hsource).1
    exact ⟨hknown, _, hcompiles, List.getElem?_set_self hinside⟩
  | fail hfails => exact .inr ⟨hknown, _, hfails, rfl⟩
  | finish => exact .inl hknown
  | keep hfirst => simp [Knows]
  | drop hlater => exact .inr hlater
  | cancel => exact .inr hknown

theorem Sound.advance (hsound : Sound style sources called tasks)
    (hstep : advance style workers sources tasks index = some next) :
    Sound style sources called next := by
  obtain ⟨source, before, after, hsource, hphase, hmove⟩ := move_of_advance hstep
  have hframe := hmove.frame
  refine ⟨?_, ?_, fun other otherSource phase hother hotherPhase => ?_, fun failure hkept => ?_,
    fun hoff => ?_, fun hcalled => ?_⟩
  · rw [hframe.phases_length, hsound.phases_length]
  · rw [hframe.results_length, hsound.results_length]
  · by_cases hne : other = index
    · subst hne
      have hinside : other < tasks.phases.length := (List.getElem?_eq_some_iff.1 hphase).1
      rw [hmove.phases_eq, List.getElem?_set_self hinside] at hotherPhase
      cases hotherPhase
      cases hsource.symm.trans hother
      exact hsound.knows_of_move hsource hphase hmove
    · rw [hframe.phases other hne] at hotherPhase
      exact (hsound.knows other otherSource phase hother hotherPhase).of_frame hframe hne
  · by_cases hold : tasks.kept = some failure
    · rcases hsound.kept failure hold with hcalled | ⟨other, otherSource, hother, hbegun, hfault⟩
      · exact .inl hcalled
      · exact .inr ⟨other, otherSource, hother, hframe.compiled other hbegun, hfault⟩
    · cases hmove with
      | keep hfirst =>
        cases hkept
        -- With nothing kept before, only the caller can have called the batch off.
        rcases hsound.knows index source _ hsource hphase with ⟨rfl, hoff⟩ | hcaused
        · exact .inl ⟨rfl, (hsound.cancelled hoff).resolve_right (absurd hfirst)⟩
        · exact .inr ⟨index, source, hsource, hcaused⟩
      | _ => exact absurd hkept hold
  · cases hmove with
    | keep hfirst => simp
    | cancel => exact .inr (hsound.knows index source _ hsource hphase)
    | _ => exact hsound.cancelled hoff
  · obtain ⟨hoff, hnothing⟩ := hsound.called hcalled
    refine ⟨hframe.cancelled hoff, ?_⟩
    cases hmove with
    | compile hon => simp [hon] at hoff
    | _ => exact hnothing

theorem sound_start (style : Style) (sources : List Source) (called : Bool) :
    Sound style sources called (start called sources) := by
  refine ⟨by simp, by simp, fun index source phase hsource hphase => ?_, by simp [start],
    fun hoff => .inl hoff, fun hcalled => ⟨hcalled, rfl⟩⟩
  have hwaits : phase = .waiting := by
    obtain ⟨_, _, rfl⟩ := List.mem_map.1 (List.mem_of_getElem? hphase)
    rfl
  subst hwaits
  trivial

/-- What every step keeps holds after every run. -/
theorem run_induction {P : Tasks → Prop}
    (hpreserves : ∀ tasks index next, P tasks →
      advance style workers sources tasks index = some next → P next) {schedule : List Nat}
    (hrun : run style workers sources tasks schedule = some last) (hholds : P tasks) : P last := by
  induction schedule generalizing tasks with
  | nil =>
    cases hrun
    exact hholds
  | cons index rest ih =>
    obtain ⟨next, hstep, hrun⟩ := Option.bind_eq_some_iff.1 hrun
    exact ih hrun (hpreserves tasks index next hholds hstep)

theorem sound_of_run {schedule : List Nat}
    (hrun : run style workers sources (start called sources) schedule = some last) :
    Sound style sources called last :=
  run_induction (fun _ _ _ hsound hstep => hsound.advance hstep) hrun
    (sound_start style sources called)

/-! ### Every run comes to an end -/

/-- How many steps the tasks have behind them at most. -/
def progress (tasks : Tasks) : Nat :=
  (tasks.phases.map Phase.rank).sum

theorem progress_lt_of_advance (hstep : advance style workers sources tasks index = some next) :
    tasks.progress < next.progress := by
  obtain ⟨source, before, after, hsource, hphase, hmove⟩ := move_of_advance hstep
  obtain ⟨hinside, rfl⟩ := List.getElem?_eq_some_iff.1 hphase
  have hsplit : tasks.phases = tasks.phases.take index ++ tasks.phases[index] ::
      tasks.phases.drop (index + 1) := by
    simp
  have hlater := hmove.rank_lt
  unfold progress
  rw [hmove.phases_eq, List.set_eq_take_append_cons_drop, if_pos hinside]
  conv_lhs => rw [hsplit]
  simp only [List.map_append, List.map_cons, List.sum_append, List.sum_cons]
  omega

theorem progress_add_length_le {schedule : List Nat}
    (hrun : run style workers sources tasks schedule = some last) :
    tasks.progress + schedule.length ≤ last.progress := by
  induction schedule generalizing tasks with
  | nil =>
    cases hrun
    simp
  | cons index rest ih =>
    obtain ⟨next, hstep, hrun⟩ := Option.bind_eq_some_iff.1 hrun
    have := progress_lt_of_advance hstep
    have := ih hrun
    simp only [List.length_cons]
    omega

theorem progress_le (tasks : Tasks) : tasks.progress ≤ 5 * tasks.phases.length := by
  have hbound : ∀ rank ∈ tasks.phases.map Phase.rank, rank ≤ 5 := by
    intro rank hrank
    obtain ⟨phase, _, rfl⟩ := List.mem_map.1 hrank
    cases phase <;> simp [Phase.rank]
  have := List.sum_le_card_nsmul _ 5 hbound
  simp only [List.length_map, smul_eq_mul] at this
  unfold progress
  omega

/-- A task that runs can always take its next step. -/
theorem exists_move_of_isRunning (style : Style) (workers : Int) (tasks : Tasks) (index : Nat)
    (source : Source) (hrunning : before.isRunning = true) :
    ∃ after next, Move style workers tasks index source before after next := by
  cases before with
  | waiting => cases hrunning
  | ended => cases hrunning
  | started =>
    rcases hoff : tasks.cancelled with _ | _
    · exact ⟨_, _, .compile hoff⟩
    · exact ⟨_, _, .giveUp hoff⟩
  | compiling =>
    rcases hresult : (source.compile style).2 with fault | compilation
    · exact ⟨_, _, .fail hresult⟩
    · exact ⟨_, _, .deliver hresult⟩
  | returned failure =>
    rcases failure with _ | failure
    · exact ⟨_, _, .finish⟩
    · by_cases hfirst : tasks.kept = none
      · exact ⟨_, _, .keep hfirst⟩
      · exact ⟨_, _, .drop hfirst⟩
  | cancelling => exact ⟨_, _, .cancel⟩

theorem Sound.exists_source (hsound : Sound style sources called tasks)
    (hphase : tasks.phases[index]? = some before) : ∃ source, sources[index]? = some source := by
  have hinside : index < sources.length := by
    rw [← hsound.phases_length]
    exact (List.getElem?_eq_some_iff.1 hphase).1
  exact ⟨sources[index], List.getElem?_eq_getElem hinside⟩

/-- Where no task runs and not every one has ended, there is a first one that waits. -/
theorem exists_first_waiting (hidle : ∀ phase ∈ tasks.phases, phase.isRunning = false)
    (hincomplete : ¬tasks.IsComplete) :
    ∃ index : Nat, tasks.phases[index]? = some .waiting ∧
      (tasks.phases.take index).all (· ≠ .waiting) = true := by
  obtain ⟨phase, hmem, hnotEnded⟩ : ∃ phase ∈ tasks.phases, phase ≠ .ended := by
    simpa [IsComplete] using hincomplete
  have hwaits : phase = .waiting := by
    have hnotRunning := hidle phase hmem
    cases phase <;> simp_all [Phase.isRunning]
  have hinside : tasks.phases.findIdx (· = .waiting) < tasks.phases.length :=
    List.findIdx_lt_length_of_exists ⟨phase, hmem, by simpa using hwaits⟩
  refine ⟨tasks.phases.findIdx (· = .waiting), ?_, ?_⟩
  · rw [List.getElem?_eq_getElem hinside]
    simpa using List.findIdx_getElem (w := hinside)
  · rw [List.all_eq_true]
    intro other hearlier
    obtain ⟨index, hbound, rfl⟩ := List.mem_take_iff_getElem.1 hearlier
    simpa using List.not_of_lt_findIdx (lt_of_lt_of_le hbound (Nat.min_le_left _ _))

theorem admits_of_idle (workers : Int) (hidle : ∀ phase ∈ tasks.phases, phase.isRunning = false)
    (hothers : (tasks.phases.take index).all (· ≠ .waiting) = true) :
    tasks.admits workers index = true := by
  have hfree : tasks.phases.countP Phase.isRunning = 0 := by
    rw [List.countP_eq_zero]
    intro phase hmem
    simp [hidle phase hmem]
  simp only [admits, hothers, hfree, Bool.true_and, Bool.or_eq_true, decide_eq_true_eq]
  omega

/-- While not every task has ended, some task can take a step: one that runs, or the first one that
waits. -/
theorem exists_advance (style : Style) (workers : Int)
    (hsound : Sound style sources called tasks) (hincomplete : ¬tasks.IsComplete) :
    ∃ index next, advance style workers sources tasks index = some next := by
  by_cases hidle : ∀ phase ∈ tasks.phases, phase.isRunning = false
  · obtain ⟨index, hphase, hothers⟩ := exists_first_waiting hidle hincomplete
    obtain ⟨source, hsource⟩ := hsound.exists_source hphase
    exact ⟨index, _, advance_of_move hsource hphase (.start (admits_of_idle workers hidle hothers))⟩
  · obtain ⟨phase, hmem, hrunning⟩ : ∃ phase ∈ tasks.phases, phase.isRunning = true := by
      simpa using hidle
    obtain ⟨index, hphase⟩ := List.getElem?_of_mem hmem
    obtain ⟨source, hsource⟩ := hsound.exists_source hphase
    obtain ⟨after, next, hmove⟩ :=
      exists_move_of_isRunning style workers tasks index source hrunning
    exact ⟨index, next, advance_of_move hsource hphase hmove⟩

/-- The tasks can always go on until every one has ended. -/
theorem exists_run_isComplete (style : Style) (workers : Int)
    (hsound : Sound style sources called tasks) :
    ∃ schedule last, run style workers sources tasks schedule = some last ∧ last.IsComplete := by
  -- A step brings the progress nearer to its bound.
  induction hleft : 5 * sources.length - tasks.progress using Nat.strong_induction_on
    generalizing tasks with
  | _ missing ih =>
    by_cases hcomplete : tasks.IsComplete
    · exact ⟨[], tasks, rfl, hcomplete⟩
    · obtain ⟨index, next, hstep⟩ := exists_advance style workers hsound hcomplete
      have hsoundNext := hsound.advance hstep
      have hmore := progress_lt_of_advance hstep
      have hbound := progress_le next
      rw [hsoundNext.phases_length] at hbound
      obtain ⟨schedule, last, hrun, hcomplete⟩ :=
        ih _ (by omega) hsoundNext rfl
      exact ⟨index :: schedule, last, by simp [run, hstep, List.foldlM_cons, ← hrun], hcomplete⟩

/-! ### One worker -/

/-- The invariant of a batch with one worker: a task begins when those before it have ended, and
compiles when they have compiled. -/
structure InTurn (style : Style) (sources : List Source) (tasks : Tasks) : Prop where
  ended : ∀ (earlier later : Nat) (phase : Phase), earlier < later →
    tasks.phases[later]? = some phase → phase ≠ .waiting → tasks.phases[earlier]? = some .ended
  cancelled : tasks.kept ≠ none → tasks.cancelled = true ∨
    ∃ index : Nat, tasks.phases[index]? = some .cancelling
  compiled : ∀ later ∈ tasks.compiled, ∀ earlier < later, ∃ source compilation,
    sources[earlier]? = some source ∧ (source.compile style).2 = .ok compilation

/-- With one worker a task is started only when those before it have ended. -/
theorem ended_of_admits (hadmitted : tasks.admits 1 index = true)
    {earlier : Nat} (hearlier : earlier < index) (hinside : index < tasks.phases.length) :
    tasks.phases[earlier]? = some .ended := by
  simp only [admits, Bool.and_eq_true, Bool.or_eq_true, decide_eq_true_eq, List.all_eq_true]
    at hadmitted
  obtain ⟨hothers, hfree⟩ := hadmitted
  have hidle : tasks.phases.countP Phase.isRunning = 0 := by omega
  rw [List.countP_eq_zero] at hidle
  have hindex : earlier < tasks.phases.length := by omega
  have hnotWaiting := hothers tasks.phases[earlier]
    (List.mem_take_iff_getElem.2 ⟨earlier, by omega, rfl⟩)
  have hnotRunning := hidle _ (List.getElem_mem hindex)
  rw [List.getElem?_eq_getElem hindex]
  generalize tasks.phases[earlier] = phase at hnotWaiting hnotRunning
  cases phase <;> simp_all [Phase.isRunning]

theorem admits_of_admits_one (workers : Int) (hadmitted : tasks.admits 1 index = true) :
    tasks.admits workers index = true := by
  simp only [admits, Bool.and_eq_true, Bool.or_eq_true, decide_eq_true_eq] at hadmitted ⊢
  exact ⟨hadmitted.1, by omega⟩

/-- What one worker does, any number of workers can do. -/
theorem run_of_run_one (workers : Int) {schedule : List Nat}
    (hrun : run style 1 sources tasks schedule = some last) :
    run style workers sources tasks schedule = some last := by
  induction schedule generalizing tasks with
  | nil => exact hrun
  | cons index rest ih =>
    obtain ⟨next, hstep, hrun⟩ := Option.bind_eq_some_iff.1 hrun
    obtain ⟨source, before, after, hsource, hphase, hmove⟩ := move_of_advance hstep
    have halso : Move style workers tasks index source before after next := by
      cases hmove with
      | start hadmitted => exact .start (admits_of_admits_one workers hadmitted)
      | giveUp hoff => exact .giveUp hoff
      | compile hon => exact .compile hon
      | deliver hcompiles => exact .deliver hcompiles
      | fail hfails => exact .fail hfails
      | finish => exact .finish
      | keep hfirst => exact .keep hfirst
      | drop hlater => exact .drop hlater
      | cancel => exact .cancel
    exact Option.bind_eq_some_iff.2
      ⟨next, advance_of_move hsource hphase halso, ih hrun⟩

/-- With one worker, while a task looks whether it is called off, those before it have compiled or
the batch is off. -/
theorem InTurn.compiles_of_started (hinTurn : InTurn style sources tasks)
    (hsound : Sound style sources called tasks) (hphase : tasks.phases[index]? = some .started)
    (hon : tasks.cancelled = false) {earlier : Nat} (hearlier : earlier < index) :
    ∃ source compilation, sources[earlier]? = some source ∧
      (source.compile style).2 = .ok compilation := by
  have hended := hinTurn.ended earlier index .started hearlier hphase (by simp)
  obtain ⟨source, hother⟩ := hsound.exists_source hended
  rcases hsound.knows earlier source _ hother hended with ⟨_, compilation, hcompiles, _⟩ | hkept
  · exact ⟨source, compilation, hother, hcompiles⟩
  · rcases hinTurn.cancelled hkept with hoff | ⟨other, hcancelling⟩
    · simp [hon] at hoff
    · -- No other task is about to call the batch off: it would stand before this one or after it.
      rcases Nat.lt_trichotomy other index with hbefore | rfl | hafter
      · simp [hinTurn.ended other index .started hbefore hphase (by simp)] at hcancelling
      · simp [hphase] at hcancelling
      · simp [hinTurn.ended index other .cancelling hafter hcancelling (by simp)] at hphase

theorem InTurn.advance (hinTurn : InTurn style sources tasks)
    (hsound : Sound style sources called tasks)
    (hstep : advance style 1 sources tasks index = some next) : InTurn style sources next := by
  obtain ⟨source, before, after, hsource, hphase, hmove⟩ := move_of_advance hstep
  have hframe := hmove.frame
  have hinside : index < tasks.phases.length := (List.getElem?_eq_some_iff.1 hphase).1
  refine ⟨fun earlier later phase hearlier hlaterPhase hnotWaiting => ?_, fun hkept => ?_,
    fun later hbegun earlier hearlier => ?_⟩
  · by_cases hown : later = index
    · subst hown
      rw [hframe.phases earlier (by omega)]
      cases hmove with
      | start hadmitted => exact ended_of_admits hadmitted hearlier hinside
      | _ => exact hinTurn.ended earlier later _ hearlier hphase (by simp)
    · rw [hframe.phases later hown] at hlaterPhase
      have hended := hinTurn.ended earlier later phase hearlier hlaterPhase hnotWaiting
      by_cases hown : earlier = index
      · -- A task that has ended takes no step.
        subst hown
        cases hphase.symm.trans hended
        cases hmove
      · rw [hframe.phases earlier hown, hended]
  · have hothers : tasks.kept ≠ none → before ≠ .cancelling → next.cancelled = true ∨
        ∃ index : Nat, next.phases[index]? = some .cancelling := by
      intro hkept hne
      refine (hinTurn.cancelled hkept).imp hframe.cancelled ?_
      rintro ⟨other, hcancelling⟩
      refine ⟨other, ?_⟩
      rw [hframe.phases other ?_, hcancelling]
      rintro rfl
      cases hphase.symm.trans hcancelling
      exact hne rfl
    cases hmove with
    | keep hfirst => exact .inr ⟨index, List.getElem?_set_self hinside⟩
    | cancel => exact .inl rfl
    | _ => exact hothers hkept (by simp)
  · cases hmove with
    | compile hon =>
      rcases List.mem_append.1 hbegun with hbegun | hindex
      · exact hinTurn.compiled later hbegun earlier hearlier
      · cases List.mem_singleton.1 hindex
        exact hinTurn.compiles_of_started hsound hphase hon hearlier
    | _ => exact hinTurn.compiled later hbegun earlier hearlier

theorem inTurn_start (style : Style) (sources : List Source) (called : Bool) :
    InTurn style sources (start called sources) := by
  refine ⟨fun earlier later phase _ hphase hnotWaiting => ?_, by simp [start], by simp [start]⟩
  obtain ⟨_, _, rfl⟩ := List.mem_map.1 (List.mem_of_getElem? hphase)
  exact absurd rfl hnotWaiting

theorem inTurn_of_run {schedule : List Nat}
    (hrun : run style 1 sources (start called sources) schedule = some last) :
    InTurn style sources last := by
  have hboth : Sound style sources called last ∧ InTurn style sources last := by
    refine run_induction (P := fun tasks => Sound style sources called tasks ∧
      InTurn style sources tasks) ?_ hrun
      ⟨sound_start style sources called, inTurn_start style sources called⟩
    rintro tasks index next ⟨hsound, hinTurn⟩ hstep
    exact ⟨hsound.advance hstep, hinTurn.advance hsound hstep⟩
  exact hboth.2

end Tasks

/-! ### One source after the other -/

section InOrder

variable {style : Style} {source : Source} {rest sources : List Source}

theorem compileInOrder_cons_of_ok {compilation : Compilation}
    (hcompiles : (source.compile style).2 = .ok compilation) :
    (compileInOrder style (source :: rest)).2 =
      (compileInOrder style rest).2.map (compilation :: ·) := by
  rcases hcompiled : source.compile style with ⟨records, result⟩
  cases hcompiled ▸ hcompiles
  simp [compileInOrder, hcompiled]

theorem compileInOrder_cons_of_error {fault : Fault}
    (hfails : (source.compile style).2 = .error fault) :
    (compileInOrder style (source :: rest)).2 = .error (.source source.name fault) := by
  rcases hcompiled : source.compile style with ⟨records, result⟩
  cases hcompiled ▸ hfails
  simp [compileInOrder, hcompiled]

theorem compileInOrder_eq_ok_iff {compilations : List Compilation} :
    (compileInOrder style sources).2 = .ok compilations ↔
      sources.map (fun source => (source.compile style).2) = compilations.map .ok := by
  induction sources generalizing compilations with
  | nil => cases compilations <;> simp [compileInOrder]
  | cons source rest ih =>
    rcases hcompiles : (source.compile style).2 with fault | compilation
    · rw [compileInOrder_cons_of_error hcompiles]
      cases compilations <;> simp [hcompiles]
    · rw [compileInOrder_cons_of_ok hcompiles]
      have hcons : ∀ (results : Except Failure (List Compilation)) (first : Compilation)
          (others : List Compilation), results.map (compilation :: ·) = .ok (first :: others) ↔
            compilation = first ∧ results = .ok others := by
        rintro (failure | results) first others <;> simp [Except.map]
      cases compilations with
      | nil => rcases (compileInOrder style rest).2 with _ | _ <;> simp [Except.map]
      | cons first others =>
        rw [hcons, ih]
        simp [hcompiles]

/-- Where one source fails, the sources do not all compile. -/
theorem map_compile_ne_ok_of_error {fault : Fault} (hmem : source ∈ sources)
    (hfails : (source.compile style).2 = .error fault) (compilations : List Compilation) :
    sources.map (fun source => (source.compile style).2) ≠ compilations.map .ok := by
  intro hcompile
  have hresult : Except.error fault ∈ compilations.map .ok := by
    rw [← hcompile, ← hfails]
    exact List.mem_map.2 ⟨source, hmem, rfl⟩
  simp at hresult

/-- Either all sources compile, or there is a first one that fails. -/
theorem forall_compile_or_exists_error (style : Style) (sources : List Source) :
    (∃ compilations : List Compilation,
      sources.map (fun source => (source.compile style).2) = compilations.map .ok) ∨
    ∃ earlier source later fault, sources = earlier ++ source :: later ∧
      (∀ source ∈ earlier, ∃ compilation, (source.compile style).2 = .ok compilation) ∧
      (source.compile style).2 = .error fault := by
  induction sources with
  | nil => exact .inl ⟨[], rfl⟩
  | cons first rest ih =>
    rcases hcompiles : (first.compile style).2 with fault | compilation
    · exact .inr ⟨[], first, rest, fault, rfl, by simp, hcompiles⟩
    · rcases ih with ⟨compilations, hcompile⟩ |
        ⟨earlier, source, later, fault, rfl, hcompile, hfails⟩
      · exact .inl ⟨compilation :: compilations, by simp [hcompiles, hcompile]⟩
      · refine .inr ⟨first :: earlier, source, later, fault, rfl, ?_, hfails⟩
        rintro other (_ | ⟨_, hearlier⟩)
        · exact ⟨compilation, hcompiles⟩
        · exact hcompile other hearlier

/-- The first source that fails ends the batch. -/
theorem compileInOrder_append_of_error {earlier later : List Source} {fault : Fault}
    (hcompile : ∀ source ∈ earlier, ∃ compilation, (source.compile style).2 = .ok compilation)
    (hfails : (source.compile style).2 = .error fault) :
    (compileInOrder style (earlier ++ source :: later)).2 = .error (.source source.name fault) := by
  induction earlier with
  | nil => exact compileInOrder_cons_of_error hfails
  | cons first others ih =>
    obtain ⟨compilation, hcompiles⟩ := hcompile first (by simp)
    have hfailed := ih fun source hother => hcompile source (by simp [hother])
    rw [List.cons_append, compileInOrder_cons_of_ok hcompiles, hfailed]
    rfl

end InOrder

/-! ### What a batch yields -/

namespace Tasks

variable {style : Style} {workers : Int} {sources : List Source} {tasks : Tasks}
  {called : Bool}

theorem IsComplete.ended (hcomplete : tasks.IsComplete) (hsound : Sound style sources called tasks)
    {index : Nat} (hinside : index < sources.length) : tasks.phases[index]? = some .ended := by
  have hindex : index < tasks.phases.length := by rw [hsound.phases_length]; exact hinside
  rw [List.getElem?_eq_getElem hindex, hcomplete _ (List.getElem_mem hindex)]

/-- Once every task has ended and no failure is kept, the results are those of the sources. -/
theorem Sound.results_eq (hsound : Sound style sources called tasks) (hcomplete : tasks.IsComplete)
    (hnone : tasks.kept = none) :
    ∃ compilations : List Compilation,
      sources.map (fun source => (source.compile style).2) = compilations.map .ok ∧
      tasks.results = compilations.map some := by
  have hdelivered : ∀ index (hinside : index < sources.length), ∃ compilation,
      (sources[index].compile style).2 = .ok compilation ∧
        tasks.results[index]? = some (some compilation) := by
    intro index hinside
    have hknown := hsound.knows index _ _ (List.getElem?_eq_getElem hinside)
      (hcomplete.ended hsound hinside)
    obtain ⟨_, hresult⟩ := hknown.resolve_right (absurd hnone)
    exact hresult
  have hfilled : ∀ result ∈ tasks.results, result ∈ Set.range some := by
    intro result hresult
    obtain ⟨index, hplace⟩ := List.getElem?_of_mem hresult
    have hinside : index < sources.length := by
      rw [← hsound.results_length]
      exact (List.getElem?_eq_some_iff.1 hplace).1
    obtain ⟨compilation, _, hfilled⟩ := hdelivered index hinside
    cases hplace.symm.trans hfilled
    exact ⟨compilation, rfl⟩
  obtain ⟨compilations, hresults⟩ : tasks.results ∈ Set.range (List.map some) := by
    rw [Set.range_list_map]
    exact hfilled
  refine ⟨compilations, ?_, hresults.symm⟩
  apply List.ext_getElem?
  intro index
  have hlength := hsound.results_length
  rw [← hresults, List.length_map] at hlength
  by_cases hinside : index < sources.length
  · obtain ⟨compilation, hcompiles, hplace⟩ := hdelivered index hinside
    rw [← hresults] at hplace
    have hnext : compilations[index]? = some compilation := by simpa using hplace
    simp [hnext, List.getElem?_eq_getElem hinside, hcompiles]
  · rw [List.getElem?_eq_none (by simp; omega), List.getElem?_eq_none (by simp; omega)]

/-- A batch that nobody called off yields the results, or the failure of one of the sources. -/
theorem Sound.outcome_eq (hsound : Sound style sources false tasks) (hcomplete : tasks.IsComplete) :
    (∃ compilations : List Compilation,
      sources.map (fun source => (source.compile style).2) = compilations.map .ok ∧
      tasks.outcome = .ok (compilations.map some)) ∨
    ∃ index source failure, sources[index]? = some source ∧
      Caused style tasks index source failure ∧ tasks.outcome = .error failure := by
  rcases hkept : tasks.kept with _ | failure
  · obtain ⟨compilations, hcompile, hresults⟩ := hsound.results_eq hcomplete hkept
    exact .inl ⟨compilations, hcompile, by simp [outcome, hkept, hresults]⟩
  · rcases hsound.kept failure hkept with ⟨_, hcalled⟩ | ⟨index, source, hsource, hcaused⟩
    · cases hcalled
    · exact .inr ⟨index, source, failure, hsource, hcaused, by simp [outcome, hkept]⟩

theorem Sound.outcome_eq_ok (hsound : Sound style sources false tasks)
    (hcomplete : tasks.IsComplete) {compilations : List Compilation}
    (hcompile : sources.map (fun source => (source.compile style).2) = compilations.map .ok) :
    tasks.outcome = .ok (compilations.map some) := by
  rcases hsound.outcome_eq hcomplete with ⟨others, halso, hyields⟩ |
    ⟨index, source, failure, hsource, ⟨_, fault, hfails, _⟩, _⟩
  · have hsame : compilations.map (Except.ok (ε := Fault)) = others.map .ok :=
      hcompile.symm.trans halso
    rw [hyields, List.map_injective_iff.2 (fun _ _ => Except.ok.inj) hsame]
  · exact absurd hcompile
      (map_compile_ne_ok_of_error (List.mem_of_getElem? hsource) hfails compilations)

/-- A batch that was called off before it began yields that. -/
theorem Sound.outcome_eq_cancelled (hsound : Sound style sources true tasks)
    (hcomplete : tasks.IsComplete) (hnonempty : sources ≠ []) :
    tasks.outcome = .error .cancelled := by
  have hnothing : tasks.compiled = [] := (hsound.called rfl).2
  have hinside : 0 < sources.length := List.length_pos_of_ne_nil hnonempty
  have hknown := hsound.knows 0 _ _ (List.getElem?_eq_getElem hinside)
    (hcomplete.ended hsound hinside)
  rcases hknown with ⟨hbegun, _⟩ | hkept
  · simp [hnothing] at hbegun
  · obtain ⟨failure, hfailure⟩ := Option.ne_none_iff_exists'.1 hkept
    rcases hsound.kept failure hfailure with ⟨rfl, _⟩ | ⟨index, _, _, hbegun, _⟩
    · simp [outcome, hfailure]
    · simp [hnothing] at hbegun

/-- With one worker no source after one that fails is compiled. -/
theorem InTurn.le_of_mem_compiled (hinTurn : InTurn style sources tasks) {failing : Nat}
    {source : Source} {fault : Fault} (hsource : sources[failing]? = some source)
    (hfails : (source.compile style).2 = .error fault) {index : Nat}
    (hbegun : index ∈ tasks.compiled) : index ≤ failing := by
  by_contra hlater
  obtain ⟨other, compilation, hother, hcompiles⟩ :=
    hinTurn.compiled index hbegun failing (by omega)
  cases hsource.symm.trans hother
  cases hfails.symm.trans hcompiles

/-- With one worker the batch yields the failure of the first source that fails. -/
theorem InTurn.outcome_eq_error {earlier later : List Source} {source : Source} {fault : Fault}
    (hinTurn : InTurn style (earlier ++ source :: later) tasks)
    (hsound : Sound style (earlier ++ source :: later) false tasks) (hcomplete : tasks.IsComplete)
    (hcompile : ∀ source ∈ earlier, ∃ compilation, (source.compile style).2 = .ok compilation)
    (hfails : (source.compile style).2 = .error fault) :
    tasks.outcome = .error (.source source.name fault) := by
  have hsource : (earlier ++ source :: later)[earlier.length]? = some source := by simp
  rcases hsound.outcome_eq hcomplete with ⟨compilations, hresults, _⟩ |
    ⟨index, other, failure, hother, ⟨hbegun, otherFault, hotherFails, rfl⟩, hyields⟩
  · exact absurd hresults (map_compile_ne_ok_of_error (by simp) hfails compilations)
  · rcases (hinTurn.le_of_mem_compiled hsource hfails hbegun).lt_or_eq with hearlier | rfl
    · rw [List.getElem?_append_left hearlier] at hother
      obtain ⟨compilation, hcompiles⟩ := hcompile other (List.mem_of_getElem? hother)
      cases hotherFails.symm.trans hcompiles
    · cases hsource.symm.trans hother
      cases hfails.symm.trans hotherFails
      exact hyields

/-- Some order of the steps yields what compiling the sources one after the other does. -/
theorem exists_run_outcome_eq_compile (style : Style) (workers : Int) (called : Bool)
    (sources : List Source) :
    ∃ schedule last, run style workers sources (start called sources) schedule = some last ∧
      last.IsComplete ∧
      last.outcome = (compile style called sources).2.map (List.map some) := by
  by_cases hempty : sources = []
  · subst hempty
    exact ⟨[], _, rfl, by simp [IsComplete, start],
      by simp [compile, compileInOrder, outcome, start, Except.map]⟩
  obtain ⟨schedule, last, hrun, hcomplete⟩ :=
    exists_run_isComplete style 1 (sound_start style sources called)
  have hsound := sound_of_run hrun
  refine ⟨schedule, last, run_of_run_one workers hrun, hcomplete, ?_⟩
  cases called with
  | true =>
    rw [hsound.outcome_eq_cancelled hcomplete hempty]
    simp [compile, hempty, Except.map]
  | false =>
    have hinOrder : (compile style false sources).2 = (compileInOrder style sources).2 := rfl
    rw [hinOrder]
    rcases forall_compile_or_exists_error style sources with ⟨compilations, hall⟩ |
      ⟨earlier, source, later, fault, rfl, hcompile, hfails⟩
    · rw [hsound.outcome_eq_ok hcomplete hall, compileInOrder_eq_ok_iff.2 hall]
      rfl
    · rw [(inTurn_of_run hrun).outcome_eq_error hsound hcomplete hcompile hfails,
        compileInOrder_append_of_error hcompile hfails]
      rfl

/-- The steps of the tasks may come in any order.  They come to an end, and once every task has
ended the batch yields the compilations of its sources in their order, or else the failure of a
source that fails; with one worker that is the first one, and none after it was compiled.  A batch
that was called off before it began yields that. -/
theorem outcome_of_every_schedule (style : Style) (workers : Int) (sources : List Source)
    (called : Bool) (schedule : List Nat) (tasks : Tasks)
    (hrun : run style workers sources (start called sources) schedule = some tasks) :
    schedule.length ≤ 5 * sources.length ∧
    (∃ more last, run style workers sources tasks more = some last ∧ last.IsComplete) ∧
    (∃ other last, run style workers sources (start called sources) other = some last ∧
      last.IsComplete ∧
      last.outcome = (compile style called sources).2.map (List.map some)) ∧
    (tasks.IsComplete →
      (called = false →
        (∀ source ∈ sources, ∃ compilation, (source.compile style).2 = .ok compilation) →
        ∃ compilations : List Compilation,
          sources.map (fun source => (source.compile style).2) = compilations.map .ok ∧
          tasks.outcome = .ok (compilations.map some)) ∧
      (called = false → (∃ source ∈ sources, ∃ fault, (source.compile style).2 = .error fault) →
        ∃ source ∈ sources, ∃ fault, (source.compile style).2 = .error fault ∧
          tasks.outcome = .error (.source source.name fault) ∧
          (Failure.source source.name fault).text =
            source.name ++ ": " ++ "internal compiler error: " ++ fault.violation.text) ∧
      (called = false → workers = 1 → ∀ earlier source later fault,
        sources = earlier ++ source :: later →
        (∀ source ∈ earlier, ∃ compilation, (source.compile style).2 = .ok compilation) →
        (source.compile style).2 = .error fault →
        tasks.outcome = .error (.source source.name fault) ∧
        ∀ index ∈ tasks.compiled, index ≤ earlier.length) ∧
      (called = true → sources ≠ [] → tasks.outcome = .error .cancelled)) := by
  have hsound := sound_of_run hrun
  refine ⟨?_, exists_run_isComplete style workers hsound,
    exists_run_outcome_eq_compile style workers called sources, fun hcomplete => ⟨?_, ?_, ?_, ?_⟩⟩
  · have hsteps := progress_add_length_le hrun
    have hbound := progress_le tasks
    rw [hsound.phases_length] at hbound
    omega
  · rintro rfl hall
    rcases forall_compile_or_exists_error style sources with ⟨compilations, hcompile⟩ |
      ⟨earlier, source, later, fault, rfl, _, hfails⟩
    · exact ⟨compilations, hcompile, hsound.outcome_eq_ok hcomplete hcompile⟩
    · obtain ⟨compilation, hcompiles⟩ := hall source (by simp)
      cases hfails.symm.trans hcompiles
  · rintro rfl ⟨failing, hmem, fault, hfails⟩
    rcases hsound.outcome_eq hcomplete with ⟨compilations, hcompile, _⟩ |
      ⟨index, source, failure, hsource, ⟨_, fault, hfails, rfl⟩, hyields⟩
    · exact absurd hcompile (map_compile_ne_ok_of_error hmem hfails compilations)
    · refine ⟨source, List.mem_of_getElem? hsource, fault, hfails, hyields, ?_⟩
      simp [Failure.text, Fault.internalError, Bytes.concat]
  · rintro rfl rfl earlier source later fault rfl hcompile hfails
    have hinTurn := inTurn_of_run hrun
    exact ⟨hinTurn.outcome_eq_error hsound hcomplete hcompile hfails,
      fun index hbegun => hinTurn.le_of_mem_compiled (by simp) hfails hbegun⟩
  · rintro rfl hnonempty
    exact hsound.outcome_eq_cancelled hcomplete hnonempty

/-- Two workers and a failure that overtakes the one before it. -/
theorem outcome_of_every_schedule_overtaking :
    let sources : List Source :=
      [⟨"a.bas", "Public Sub f("⟩, ⟨"b.bas", "Dim x"⟩, ⟨"c.bas", "Private Sub g(Dim"⟩]
    let schedule := [0, 1, 0, 1, 1, 1, 2, 2, 2, 2, 0, 0, 2]
    ∃ tasks, run {} 2 sources (start false sources) schedule = some tasks ∧ tasks.IsComplete ∧
      (∃ source ∈ sources, ∃ fault, (source.compile {}).2 = .error fault) ∧
      ∃ source ∈ sources, ∃ fault, (source.compile {}).2 = .error fault ∧
        tasks.outcome = .error (.source source.name fault) := by
  intro sources schedule
  have hfinished : (run {} 2 sources (start false sources) schedule).map (decide <| IsComplete ·) =
      some true := by
    decide +kernel
  obtain ⟨tasks, hrun, hcomplete⟩ := Option.map_eq_some_iff.1 hfinished
  have hmem : ⟨"a.bas", "Public Sub f("⟩ ∈ sources := List.mem_cons_self
  have hbroken : ((⟨"a.bas", "Public Sub f("⟩ : Source).compile {}).2.toOption.isNone = true := by
    decide +kernel
  have hfails : ∃ source ∈ sources, ∃ fault, (source.compile {}).2 = .error fault := by
    refine ⟨_, hmem, ?_⟩
    rcases hresult : ((⟨"a.bas", "Public Sub f("⟩ : Source).compile {}).2 with fault | compilation
    · exact ⟨fault, rfl⟩
    · simp [hresult, Except.toOption] at hbroken
  obtain ⟨_, _, _, hyields⟩ := outcome_of_every_schedule {} 2 sources false schedule tasks hrun
  obtain ⟨_, hfailing, _⟩ := hyields (of_decide_eq_true hcomplete)
  obtain ⟨source, hmem, fault, hfault, houtcome, _⟩ := hfailing rfl hfails
  exact ⟨tasks, hrun, of_decide_eq_true hcomplete, hfails, source, hmem, fault, hfault, houtcome⟩

end Tasks

end LegacyBasic.Batch
