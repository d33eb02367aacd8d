import ArchInstaller.Executors.Base
import ArchInstaller.Interaction.Ending
import ArchInstaller.Interaction.Monitor
import ArchInstaller.Interaction.Returning
import ArchInstaller.Interaction.Triple

/-! # Runs of single calls

What a run of each way to issue a command looks like, and which commands it issues. -/

namespace ArchInstaller.Script

open Interaction

variable {α : Type} {exchanges : Exchanges} {command : Command} {invocation : Invocation}

section Logging

variable {message : String} {next : Unit → Script α} {outcome : Outcome InstallerError α}

@[simp] theorem runs_debug_bind :
    Runs (debug message >>= next) exchanges outcome ↔ Runs (next ()) exchanges outcome := by
  simp [debug, runs_log_iff]

@[simp] theorem runs_info_bind :
    Runs (info message >>= next) exchanges outcome ↔ Runs (next ()) exchanges outcome := by
  simp [info, runs_log_iff]

@[simp] theorem runs_onlyIf_debug_bind {condition : Bool} :
    Runs (Program.onlyIf condition (debug message) >>= next) exchanges outcome ↔
      Runs (next ()) exchanges outcome := by
  cases condition
  · rfl
  · exact runs_debug_bind

@[simp] theorem runs_onlyIf_info_bind {condition : Bool} :
    Runs (Program.onlyIf condition (info message) >>= next) exchanges outcome ↔
      Runs (next ()) exchanges outcome := by
  cases condition
  · rfl
  · exact runs_info_bind

theorem runs_info_iff {outcome : Outcome InstallerError Unit} :
    Runs (info message) exchanges outcome ↔
      exchanges = [] ∧ (outcome = .returned () ∨ outcome = .stopped) := by
  rw [info, runs_log_iff, runs_ret_iff]

theorem runs_warning_iff {outcome : Outcome InstallerError Unit} :
    Runs (warning message) exchanges outcome ↔
      exchanges = [] ∧ (outcome = .returned () ∨ outcome = .stopped) := by
  rw [warning, runs_log_iff, runs_ret_iff]

@[simp] theorem runs_info_returned_iff {value : Unit} :
    Runs (info message) exchanges (.returned value) ↔ exchanges = [] := by
  simp [runs_info_iff]

@[simp] theorem runs_warning_returned_iff {value : Unit} :
    Runs (warning message) exchanges (.returned value) ↔ exchanges = [] := by
  simp [runs_warning_iff]

end Logging

@[simp] theorem runs_raise_returned_iff {error : InstallerError} {value : α} :
    Runs (raise error : Script α) exchanges (.returned value) ↔ False := by
  simp [raise, runs_raise_iff]

@[simp] theorem runs_pure_returned_iff {value value' : α} :
    Runs (pure value : Script α) exchanges (.returned value') ↔ exchanges = [] ∧ value' = value := by
  simp [runs_pure_iff]

/-! ## Calls -/

/-- How a call ends once it is answered. -/
def ending (invocation : Invocation) (result : CommandExecutionResult) :
    Outcome InstallerError CommandExecutionResult :=
  if invocation.raiseOnNonzeroExit && !result.success then
    .raised (.command invocation.command.text result.exitCode result.stdout result.stderr)
  else .returned result

/-- The call is answered and ends accordingly, unless the run is cut off before or after. -/
theorem runs_invoke_iff {outcome : Outcome InstallerError CommandExecutionResult} :
    Runs (invoke invocation) exchanges outcome ↔
      (exchanges = [] ∧ outcome = .stopped) ∨
      ∃ result, exchanges = [(invocation, result)] ∧
        (outcome = ending invocation result ∨ outcome = .stopped) := by
  have hrest : ∀ (result : CommandExecutionResult) (tail : Exchanges),
      Runs (if invocation.raiseOnNonzeroExit && !result.success then
          raise (.command invocation.command.text result.exitCode result.stdout result.stderr)
        else pure result : Script CommandExecutionResult) tail outcome ↔
      tail = [] ∧ (outcome = ending invocation result ∨ outcome = .stopped) := by
    intro result tail
    unfold ending
    split
    · exact runs_raise_iff
    · exact runs_pure_iff
  simp only [invoke, runs_debug_bind, Program.request_bind, Program.ret_bind, runs_request_iff,
    runs_onlyIf_debug_bind, hrest]
  grind

/-- A call that raises on a nonzero exit code. -/
abbrev checked (command : Command) : Invocation := ⟨command, true, none⟩

/-- A call whose exit code the caller looks at, or not. -/
abbrev unchecked (command : Command) : Invocation := ⟨command, false, none⟩

theorem runs_invoke_returned_iff {result : CommandExecutionResult} :
    Runs (invoke invocation) exchanges (.returned result) ↔
      exchanges = [(invocation, result)] ∧ (invocation.raiseOnNonzeroExit → result.success) := by
  simp only [runs_invoke_iff, ending]
  grind

@[simp] theorem runs_run_returned_iff {result : CommandExecutionResult} :
    Runs (run command) exchanges (.returned result) ↔
      exchanges = [(checked command, result)] ∧ result.success := by
  simp [run, runs_invoke_returned_iff]

@[simp] theorem runs_runWithInput_returned_iff {input : String} {result : CommandExecutionResult} :
    Runs (runWithInput command input) exchanges (.returned result) ↔
      exchanges = [(⟨command, true, some input⟩, result)] ∧ result.success := by
  simp [runWithInput, runs_invoke_returned_iff]

@[simp] theorem runs_tryRun_returned_iff {result : CommandExecutionResult} :
    Runs (tryRun command) exchanges (.returned result) ↔
      exchanges = [(unchecked command, result)] := by
  simp [tryRun, runs_invoke_returned_iff]

@[simp] theorem runs_tryRunWithInput_returned_iff {input : String}
    {result : CommandExecutionResult} :
    Runs (tryRunWithInput command input) exchanges (.returned result) ↔
      exchanges = [(⟨command, false, some input⟩, result)] := by
  simp [tryRunWithInput, runs_invoke_returned_iff]

@[simp] theorem runs_run_unit_iff {value : Unit} :
    Runs (run_ command) exchanges (.returned value) ↔
      ∃ result, exchanges = [(checked command, result)] ∧ result.success := by
  simp [run_]

@[simp] theorem runs_tryRun_unit_iff {value : Unit} :
    Runs (tryRun_ command) exchanges (.returned value) ↔
      ∃ result, exchanges = [(unchecked command, result)] := by
  simp [tryRun_]

@[simp] theorem runs_probe_returned_iff {success : Bool} :
    Runs (probe command) exchanges (.returned success) ↔
      ∃ result, exchanges = [(unchecked command, result)] ∧ success = result.success := by
  simp [probe]

@[simp] theorem runs_query_returned_iff {stdout : String} :
    Runs (query command) exchanges (.returned stdout) ↔
      ∃ result, exchanges = [(unchecked command, result)] ∧ stdout = result.stdout := by
  simp [query]

/-! ## The commands a script issues -/

/-! A call as the first step of a script. -/

section Bind

variable {outcome : Outcome InstallerError α}

theorem runs_tryRun_bind_iff {next : CommandExecutionResult → Script α} :
    Runs (tryRun command >>= next) exchanges outcome ↔ (exchanges = [] ∧ outcome = .stopped) ∨
      ∃ result tail, exchanges = (unchecked command, result) :: tail ∧
        Runs (next result) tail outcome := by
  have hstop : ∀ result, Runs (next result) [] .stopped := fun _ => .stopped
  simp only [runs_bind_iff, tryRun, runs_invoke_iff, ending]
  grind

theorem runs_run_unit_bind_iff {next : Unit → Script α} :
    Runs (run_ command >>= next) exchanges outcome ↔ (exchanges = [] ∧ outcome = .stopped) ∨
      ∃ result tail, exchanges = (checked command, result) :: tail ∧
        if result.success then Runs (next ()) tail outcome
        else tail = [] ∧ (outcome = .stopped ∨ outcome = .raised
          (.command command.text result.exitCode result.stdout result.stderr)) := by
  simp only [run_, run, bind_assoc, pure_bind, invoke, runs_debug_bind, Program.request_bind,
    Program.ret_bind, runs_request_iff, runs_onlyIf_debug_bind]
  have hrest : ∀ (result : CommandExecutionResult) (tail : Exchanges),
      Runs ((if true && !result.success then
          raise (.command command.text result.exitCode result.stdout result.stderr)
        else pure result : Script CommandExecutionResult) >>= fun _ => next ()) tail outcome ↔
      if result.success then Runs (next ()) tail outcome
      else tail = [] ∧ (outcome = .stopped ∨ outcome = .raised
        (.command command.text result.exitCode result.stdout result.stderr)) := by
    intro result tail
    cases result.success
    · simpa [raise, or_comm] using runs_raise_iff
    · simp
  simp only [hrest]

theorem runs_probe_bind_iff {next : Bool → Script α} :
    Runs (probe command >>= next) exchanges outcome ↔ (exchanges = [] ∧ outcome = .stopped) ∨
      ∃ result tail, exchanges = (unchecked command, result) :: tail ∧
        Runs (next result.success) tail outcome := by
  rw [probe, bind_assoc, runs_tryRun_bind_iff]
  simp only [pure_bind]

end Bind

section CanReturn

variable {allowed : Invocation → CommandExecutionResult → Prop} {message : String}

@[simp] theorem canReturn_info {value : Unit} : CanReturn allowed (info message) value := by
  simp [info]

@[simp] theorem canReturn_warning {value : Unit} : CanReturn allowed (warning message) value := by
  simp [warning]

@[simp] theorem canReturn_scriptRaise {error : InstallerError} {value : α} :
    CanReturn allowed (raise error : Script α) value ↔ False :=
  canReturn_raise

theorem canReturn_invoke {result : CommandExecutionResult} :
    CanReturn allowed (invoke invocation) result ↔
      allowed invocation result ∧ (invocation.raiseOnNonzeroExit → result.success) := by
  simp only [CanReturn, runs_invoke_returned_iff]
  grind [allAllowed_cons, allAllowed_nil]

@[simp] theorem canReturn_run {result : CommandExecutionResult} :
    CanReturn allowed (run command) result ↔ allowed (checked command) result ∧ result.success := by
  simp [run, canReturn_invoke]

@[simp] theorem canReturn_tryRun {result : CommandExecutionResult} :
    CanReturn allowed (tryRun command) result ↔ allowed (unchecked command) result := by
  simp [tryRun, canReturn_invoke]

@[simp] theorem canReturn_runWithInput {input : String} {result : CommandExecutionResult} :
    CanReturn allowed (runWithInput command input) result ↔
      allowed ⟨command, true, some input⟩ result ∧ result.success := by
  simp [runWithInput, canReturn_invoke]

@[simp] theorem canReturn_tryRunWithInput {input : String} {result : CommandExecutionResult} :
    CanReturn allowed (tryRunWithInput command input) result ↔
      allowed ⟨command, false, some input⟩ result := by
  simp [tryRunWithInput, canReturn_invoke]

@[simp] theorem canReturn_run_unit {value : Unit} :
    CanReturn allowed (run_ command) value ↔
      ∃ result, allowed (checked command) result ∧ result.success := by
  simp [run_]

@[simp] theorem canReturn_tryRun_unit {value : Unit} :
    CanReturn allowed (tryRun_ command) value ↔ ∃ result, allowed (unchecked command) result := by
  simp [tryRun_]

@[simp] theorem canReturn_probe {success : Bool} :
    CanReturn allowed (probe command) success ↔
      ∃ result, allowed (unchecked command) result ∧ success = result.success := by
  simp [probe]

@[simp] theorem canReturn_query {stdout : String} :
    CanReturn allowed (query command) stdout ↔
      ∃ result, allowed (unchecked command) result ∧ stdout = result.stdout := by
  simp [query]

end CanReturn

section Issues

variable {allowed : Invocation → CommandExecutionResult → Prop} {good : Invocation → Prop}
  {message : String}

@[simp] theorem issues_debug : IssuesGiven allowed good (debug message) := by simp [debug]

@[simp] theorem issues_info : IssuesGiven allowed good (info message) := by simp [info]

@[simp] theorem issues_warning : IssuesGiven allowed good (warning message) := by simp [warning]

@[simp] theorem issues_scriptRaise {error : InstallerError} :
    IssuesGiven allowed good (raise error : Script α) := by
  simp [raise]

/-- A command is issued where there is an answer for it. -/
@[simp] theorem issues_invoke :
    IssuesGiven allowed good (invoke invocation) ↔
      ((∃ result, allowed invocation result) → good invocation) := by
  constructor
  · rintro h ⟨result, hresult⟩
    refine h [(invocation, result)] .stopped (by simp [hresult]) ?_ _ (List.mem_singleton_self _)
    exact runs_invoke_iff.mpr (.inr ⟨result, rfl, .inr rfl⟩)
  · rintro hgood exchanges outcome hallowed hrun x hx
    rcases runs_invoke_iff.mp hrun with ⟨rfl, -⟩ | ⟨result, rfl, -⟩
    · cases hx
    · rw [List.mem_singleton.mp hx]
      exact hgood ⟨result, (allAllowed_cons.mp hallowed).1⟩

@[simp] theorem issues_run :
    IssuesGiven allowed good (run command) ↔
      ((∃ result, allowed (checked command) result) → good (checked command)) :=
  issues_invoke

@[simp] theorem issues_tryRun :
    IssuesGiven allowed good (tryRun command) ↔
      ((∃ result, allowed (unchecked command) result) → good (unchecked command)) :=
  issues_invoke

@[simp] theorem issues_runWithInput {input : String} :
    IssuesGiven allowed good (runWithInput command input) ↔
      ((∃ result, allowed ⟨command, true, some input⟩ result) →
        good ⟨command, true, some input⟩) :=
  issues_invoke

@[simp] theorem issues_tryRunWithInput {input : String} :
    IssuesGiven allowed good (tryRunWithInput command input) ↔
      ((∃ result, allowed ⟨command, false, some input⟩ result) →
        good ⟨command, false, some input⟩) :=
  issues_invoke

@[simp] theorem issues_run_unit :
    IssuesGiven allowed good (run_ command) ↔
      ((∃ result, allowed (checked command) result) → good (checked command)) := by
  simp [run_]

@[simp] theorem issues_tryRun_unit :
    IssuesGiven allowed good (tryRun_ command) ↔
      ((∃ result, allowed (unchecked command) result) → good (unchecked command)) := by
  simp [tryRun_]

@[simp] theorem issues_probe :
    IssuesGiven allowed good (probe command) ↔
      ((∃ result, allowed (unchecked command) result) → good (unchecked command)) := by
  simp [probe]

@[simp] theorem issues_query :
    IssuesGiven allowed good (query command) ↔
      ((∃ result, allowed (unchecked command) result) → good (unchecked command)) := by
  simp [query]

@[simp] theorem issues_writeFile {path content : String} :
    IssuesGiven allowed good (writeFile path content) ↔
      ((∃ result, allowed ⟨.writeFile path, true, some content⟩ result) →
        good ⟨.writeFile path, true, some content⟩) := by
  simp [writeFile]

theorem issues_waitForNode {device node : String} {error : InstallerError} {attempts : Nat}
    (hprobe : good (unchecked (.test .exists node)))
    (hread : good (unchecked (.partprobe device))) :
    IssuesGiven allowed good (waitForNode device node error attempts) := by
  induction attempts with
  | zero => simp [waitForNode]
  | succ attempts ih => simp [waitForNode, pathExists, hprobe, hread, ih]

end Issues

section Accepts

variable {σ : Type} {M : Machine Invocation CommandExecutionResult σ} {s : σ} {post : σ → Prop}

theorem accepts_invoke (h : ∀ result, ∃ s', M s invocation result s' ∧ post s') :
    Accepts M s (invoke invocation) fun _ s' => post s' := by
  intro exchanges outcome hrun
  rcases runs_invoke_iff.mp hrun with ⟨rfl, rfl⟩ | ⟨result, rfl, -⟩
  · exact ⟨s, .nil, by rintro _ ⟨⟩⟩
  · obtain ⟨s', hstep, hs'⟩ := h result
    exact ⟨s', .cons hstep .nil, fun _ _ => hs'⟩

theorem accepts_probe (h : ∀ result, ∃ s', M s (unchecked command) result s' ∧ post s') :
    Accepts M s (probe command) fun _ s' => post s' :=
  (accepts_invoke h).bind fun _ _ hs' => accepts_ret hs'

end Accepts

section Triples

variable {σ : Type} {M : Machine Invocation CommandExecutionResult σ} {s : σ} {always : σ → Prop}

theorem keeps_invoke {post : CommandExecutionResult → σ → Prop} (hs : always s)
    (h : ∀ result s', M s invocation result s' →
      always s' ∧ ((invocation.raiseOnNonzeroExit → result.success) → post result s')) :
    Keeps M s (invoke invocation) always post := by
  intro exchanges outcome s' hrun hreplay
  rcases runs_invoke_iff.mp hrun with ⟨rfl, rfl⟩ | ⟨result, rfl, houtcome⟩
  · obtain rfl := replays_nil_iff.mp hreplay
    exact ⟨hs, by rintro _ ⟨⟩⟩
  · obtain ⟨_, hstep, hend⟩ := replays_cons_iff.mp hreplay
    obtain rfl := replays_nil_iff.mp hend
    obtain ⟨halways, hpost⟩ := h result s' hstep
    refine ⟨halways, fun value hvalue => ?_⟩
    obtain rfl | rfl := houtcome
    · unfold ending at hvalue
      split at hvalue
      · cases hvalue
      · cases hvalue
        exact hpost (by simp_all)
    · cases hvalue

theorem keeps_run_unit {post : σ → Prop} (hs : always s)
    (h : ∀ result s', M s (checked command) result s' →
      always s' ∧ (result.success → post s')) :
    Keeps M s (run_ command) always fun _ s' => post s' := by
  have hinvoke : Keeps M s (run command) always fun _ s' => post s' :=
    keeps_invoke hs fun result s' hstep =>
      ⟨(h result s' hstep).1, fun hsuccess => (h result s' hstep).2 (hsuccess rfl)⟩
  exact hinvoke.bind fun _ s' hs' hpost => keeps_ret hs' hpost

theorem keeps_probe {post : Bool → σ → Prop} (hs : always s)
    (h : ∀ result s', M s (unchecked command) result s' → always s' ∧ post result.success s') :
    Keeps M s (probe command) always post := by
  have hinvoke : Keeps M s (tryRun command) always fun result s' => post result.success s' :=
    keeps_invoke hs fun result s' hstep =>
      ⟨(h result s' hstep).1, fun _ => (h result s' hstep).2⟩
  exact hinvoke.bind fun _ s' hs' hpost => keeps_ret hs' hpost

theorem keeps_query {post : String → σ → Prop} (hs : always s)
    (h : ∀ result s', M s (unchecked command) result s' → always s' ∧ post result.stdout s') :
    Keeps M s (query command) always post := by
  have hinvoke : Keeps M s (tryRun command) always fun result s' => post result.stdout s' :=
    keeps_invoke hs fun result s' hstep =>
      ⟨(h result s' hstep).1, fun _ => (h result s' hstep).2⟩
  exact hinvoke.bind fun _ s' hs' hpost => keeps_ret hs' hpost

theorem reaches_invoke {post : CommandExecutionResult → σ → Prop}
    (result : CommandExecutionResult) {s' : σ} (hstep : M s invocation result s')
    (hsuccess : invocation.raiseOnNonzeroExit → result.success) (hpost : post result s') :
    Reaches M s (invoke invocation) post :=
  ⟨[(invocation, result)], result, s', runs_invoke_returned_iff.mpr ⟨rfl, hsuccess⟩,
    .cons hstep .nil, hpost⟩

theorem reaches_run_unit {post : σ → Prop} (result : CommandExecutionResult) {s' : σ}
    (hstep : M s (checked command) result s') (hsuccess : result.success) (hpost : post s') :
    Reaches M s (run_ command) fun _ s' => post s' := by
  have hinvoke : Reaches M s (run command) fun _ s' => post s' :=
    reaches_invoke result hstep (fun _ => hsuccess) hpost
  exact hinvoke.bind fun _ _ hpost => reaches_ret hpost

theorem reaches_probe {post : Bool → σ → Prop} (result : CommandExecutionResult) {s' : σ}
    (hstep : M s (unchecked command) result s') (hpost : post result.success s') :
    Reaches M s (probe command) post := by
  have hinvoke : Reaches M s (tryRun command) fun result s' => post result.success s' :=
    reaches_invoke result hstep (by simp) hpost
  exact hinvoke.bind fun _ _ hpost => reaches_ret hpost

theorem reaches_query {post : String → σ → Prop} (result : CommandExecutionResult) {s' : σ}
    (hstep : M s (unchecked command) result s') (hpost : post result.stdout s') :
    Reaches M s (query command) post := by
  have hinvoke : Reaches M s (tryRun command) fun result s' => post result.stdout s' :=
    reaches_invoke result hstep (by simp) hpost
  exact hinvoke.bind fun _ _ hpost => reaches_ret hpost

end Triples

section Ends

variable {σ : Type} {M : Machine Invocation CommandExecutionResult σ} {s : σ}

theorem ends_invoke {post : Exchanges → Outcome InstallerError CommandExecutionResult → σ → Prop}
    (h : ∀ result s', M s invocation result s' →
      post [(invocation, result)] (ending invocation result) s') :
    Ends M s (invoke invocation) post := by
  intro exchanges outcome s' hrun hreplay hended
  rcases runs_invoke_iff.mp hrun with ⟨-, rfl⟩ | ⟨result, rfl, rfl | rfl⟩
  · exact absurd rfl hended
  · obtain ⟨_, hstep, hend⟩ := replays_cons_iff.mp hreplay
    obtain rfl := replays_nil_iff.mp hend
    exact h result _ hstep
  · exact absurd rfl hended

theorem ends_unchecked {inputData : Option String}
    {post : Exchanges → Outcome InstallerError CommandExecutionResult → σ → Prop}
    (h : ∀ result s', M s ⟨command, false, inputData⟩ result s' →
      post [(⟨command, false, inputData⟩, result)] (.returned result) s') :
    Ends M s (invoke ⟨command, false, inputData⟩) post :=
  ends_invoke fun result s' hstep => by simpa [ending] using h result s' hstep

theorem ends_run_unit {post : Exchanges → Outcome InstallerError Unit → σ → Prop}
    (hok : ∀ result s', M s (checked command) result s' → result.success →
      post [(checked command, result)] (.returned ()) s')
    (hfailed : ∀ result s' error, M s (checked command) result s' → result.success = false →
      post [(checked command, result)] (.raised error) s') :
    Ends M s (run_ command) post := by
  have hinvoke : Ends M s (run command) fun exchanges outcome s' => ∃ result,
      exchanges = [(checked command, result)] ∧ M s (checked command) result s' ∧
        outcome = ending (checked command) result :=
    ends_invoke fun result s' hstep => ⟨result, rfl, hstep, rfl⟩
  refine hinvoke.bind (fun exchanges error s' h => ?_) fun first value s' h => ?_
  · obtain ⟨result, rfl, hstep, hending⟩ := h
    cases hsuccess : result.success with
    | true => simp [ending, hsuccess] at hending
    | false => exact hfailed result s' error hstep hsuccess
  · obtain ⟨result, rfl, hstep, hending⟩ := h
    cases hsuccess : result.success with
    | true => exact ends_ret (hok result s' hstep hsuccess)
    | false => simp [ending, hsuccess] at hending

theorem ends_tryRun_unit {post : Exchanges → Outcome InstallerError Unit → σ → Prop}
    (h : ∀ result s', M s (unchecked command) result s' →
      post [(unchecked command, result)] (.returned ()) s') :
    Ends M s (tryRun_ command) post := by
  have hinvoke : Ends M s (tryRun command) fun exchanges outcome s' => ∃ result,
      exchanges = [(unchecked command, result)] ∧ M s (unchecked command) result s' ∧
        outcome = .returned result :=
    ends_unchecked fun result s' hstep => ⟨result, rfl, hstep, rfl⟩
  refine hinvoke.bind (fun exchanges error s' h => by simp at h) fun first value s' hfirst => ?_
  obtain ⟨result, rfl, hstep, -⟩ := hfirst
  exact ends_ret (h result s' hstep)

theorem ends_probe {post : Exchanges → Outcome InstallerError Bool → σ → Prop}
    (h : ∀ result s', M s (unchecked command) result s' →
      post [(unchecked command, result)] (.returned result.success) s') :
    Ends M s (probe command) post := by
  have hinvoke : Ends M s (tryRun command) fun exchanges outcome s' => ∃ result,
      exchanges = [(unchecked command, result)] ∧ M s (unchecked command) result s' ∧
        outcome = .returned result :=
    ends_unchecked fun result s' hstep => ⟨result, rfl, hstep, rfl⟩
  refine hinvoke.bind (fun exchanges error s' h => by simp at h) fun first value s' hfirst => ?_
  obtain ⟨result, rfl, hstep, hvalue⟩ := hfirst
  obtain rfl : value = result := by simpa using hvalue
  exact ends_ret (h _ s' hstep)

end Ends

section Returns

variable {σ : Type} {M : Machine Invocation CommandExecutionResult σ} {s : σ}

theorem returns_run {Q : Exchanges → CommandExecutionResult → σ → Prop}
    (h : ∀ result s', M s (checked command) result s' → result.success →
      Q [(checked command, result)] result s') : Returns M s (run command) Q := by
  intro exchanges result s' hrun hreplay
  obtain ⟨rfl, hsuccess⟩ := runs_run_returned_iff.mp hrun
  obtain ⟨_, hstep, hend⟩ := replays_cons_iff.mp hreplay
  obtain rfl := replays_nil_iff.mp hend
  exact h result _ hstep hsuccess

theorem returns_run_unit {Q : Exchanges → Unit → σ → Prop}
    (h : ∀ result s', M s (checked command) result s' → result.success →
      Q [(checked command, result)] () s') : Returns M s (run_ command) Q := by
  intro exchanges _ s' hrun hreplay
  obtain ⟨result, rfl, hsuccess⟩ := runs_run_unit_iff.mp hrun
  obtain ⟨_, hstep, hend⟩ := replays_cons_iff.mp hreplay
  obtain rfl := replays_nil_iff.mp hend
  exact h result _ hstep hsuccess

theorem returns_tryRun_unit {Q : Exchanges → Unit → σ → Prop}
    (h : ∀ result s', M s (unchecked command) result s' →
      Q [(unchecked command, result)] () s') : Returns M s (tryRun_ command) Q := by
  intro exchanges _ s' hrun hreplay
  obtain ⟨result, rfl⟩ := runs_tryRun_unit_iff.mp hrun
  obtain ⟨_, hstep, hend⟩ := replays_cons_iff.mp hreplay
  obtain rfl := replays_nil_iff.mp hend
  exact h result _ hstep

theorem returns_probe {Q : Exchanges → Bool → σ → Prop}
    (h : ∀ result s', M s (unchecked command) result s' →
      Q [(unchecked command, result)] result.success s') : Returns M s (probe command) Q := by
  intro exchanges _ s' hrun hreplay
  obtain ⟨result, rfl, rfl⟩ := runs_probe_returned_iff.mp hrun
  obtain ⟨_, hstep, hend⟩ := replays_cons_iff.mp hreplay
  obtain rfl := replays_nil_iff.mp hend
  exact h result _ hstep

theorem returns_writeFile {path content : String} {Q : Exchanges → Unit → σ → Prop}
    (h : ∀ result s', M s ⟨.writeFile path, true, some content⟩ result s' → result.success →
      Q [(⟨.writeFile path, true, some content⟩, result)] () s') :
    Returns M s (writeFile path content) Q := by
  intro exchanges _ s' hrun hreplay
  have hwritten : ∃ result, exchanges = [(⟨.writeFile path, true, some content⟩, result)] ∧
      result.success := by
    simpa [writeFile] using hrun
  obtain ⟨result, rfl, hsuccess⟩ := hwritten
  obtain ⟨_, hstep, hend⟩ := replays_cons_iff.mp hreplay
  obtain rfl := replays_nil_iff.mp hend
  exact h result _ hstep hsuccess

end Returns

end ArchInstaller.Script
