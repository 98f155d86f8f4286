import Mathlib.Data.List.Induction
import Workforce.Proofs.FileTree
import Workforce.Session.LogSession

/-!
# Logging is set up once

Whatever happens to the logging of a process is a list of moves: it is set up, with a file
or without, the application installs a subscriber of its own, or an event is logged.  The
moves after one that broke the process down are not made.

Of the calls that set logging up, the first one that asks for anything decides
(`Logging.Decided`); one that cannot open its file asks for nothing (`Logging.request?`).
Until then nothing happens, except that the application may install its subscriber
(`Logging.follow_of_pending`); from then on lines go where the first call has sent them, and
later calls make empty files at most (`Logging.Settled.follow`).  What a session does is such
a list of moves, so no further call of a session writes anything
(`LogSession.writes_nothing_callAll`).
-/

namespace Workforce

/-- Something that happens to the logging of a process. -/
inductive LogMove
  | setUp (settings : LogSettings)
  | setUpWithFile (settings : LogSettings) (path : String)
  /-- The application installs a subscriber of its own. -/
  | install
  | emit (event : LogEvent)
deriving DecidableEq, Inhabited

namespace LogMove

/-- The event that is logged, if one is. -/
def event? : LogMove → Option LogEvent
  | .emit event => some event
  | _ => none

end LogMove

namespace Pipeline

variable (pipeline : Pipeline)

/-- The events among some moves that the filter lets pass, in their order. -/
def passed (moves : List LogMove) : List LogEvent :=
  (moves.filterMap LogMove.event?).filter fun event =>
    pipeline.filter.allows event.target.toList event.fields event.level

/-- The lines that go to the console. -/
def consoleLines (moves : List LogMove) : List LogLine :=
  (pipeline.passed moves).map fun event => { event, shape := pipeline.console }

/-- The lines that go to the file, if there is one. -/
def fileLines (moves : List LogMove) : List FileChunk :=
  (pipeline.passed moves).map fun event => .line { event, shape := .ofFile }

end Pipeline

/-- What a call that sets logging up asks for. -/
structure LogRequest where
  settings : LogSettings
  console : LineShape
  file : Option Location := none

/-- The pipeline that a call asks for, with the filter for its settings. -/
def LogRequest.pipeline (request : LogRequest) (filter : Filter) : Pipeline where
  filter := filter
  console := request.console
  file := request.file

namespace Logging

variable {logging before after start : Logging} {moves : List LogMove}

/-! ## Moves -/

/-- Makes a move.  A call that reports an error changes nothing. -/
def move (logging : Logging) : LogMove → Logging
  | .setUp settings => logging.setUp settings
  | .setUpWithFile settings path =>
    match logging.setUpWithFile settings path with
    | .ok after => after
    | .error _ => logging
  | .install => logging.install
  | .emit event => logging.emit event

/-- Makes one move after the other, as long as the process is not broken. -/
def follow : Logging → List LogMove → Logging
  | logging, [] => logging
  | logging, first :: rest => if logging.broken then logging else (logging.move first).follow rest

theorem follow_of_broken (h : logging.broken = true) (moves : List LogMove) :
    logging.follow moves = logging := by
  cases moves with
  | nil => rfl
  | cons first rest => rw [follow, if_pos h]

theorem follow_cons (h : logging.broken = false) (first : LogMove) (rest : List LogMove) :
    logging.follow (first :: rest) = (logging.move first).follow rest := by
  rw [follow, h, if_neg Bool.false_ne_true]

theorem follow_append (logging : Logging) (front back : List LogMove) :
    logging.follow (front ++ back) = (logging.follow front).follow back := by
  induction front generalizing logging with
  | nil => rfl
  | cons first rest ih =>
    cases hbroken : logging.broken with
    | true => rw [follow_of_broken hbroken, follow_of_broken hbroken, follow_of_broken hbroken]
    | false => rw [List.cons_append, follow_cons hbroken, follow_cons hbroken, ih]

/-! ## Requests -/

/-- What a move asks for: nothing, unless it sets logging up and can open its file. -/
def request? (logging : Logging) : LogMove → Option LogRequest
  | .setUp settings =>
    some
      { settings
        console :=
          if settings.json then .ofJson else .ofConsole settings settings.time }
  | .setUpWithFile settings path =>
    match logging.files.openAppend path with
    | .ok (place, _) =>
      some { settings, console := .ofConsole settings true, file := some place }
    | .error _ => none
  | .install | .emit _ => none

/-- None of the moves has asked for anything. -/
def Pending (start : Logging) (moves : List LogMove) : Prop :=
  ∀ front move back, moves = front ++ move :: back → (start.follow front).request? move = none

/-- A call whose file cannot be opened reports the error. -/
theorem setUpWithFile_error {settings : LogSettings} {path : String} {error : FileError}
    (h : logging.files.openAppend path = .error error) :
    logging.setUpWithFile settings path = .error error := by
  rw [setUpWithFile, h]

theorem move_of_error {settings : LogSettings} {path : String} {error : FileError}
    (h : logging.files.openAppend path = .error error) :
    logging.move (.setUpWithFile settings path) = logging := by
  rw [move, setUpWithFile_error h]

/-- A call that asks for something may have opened its file, and acts if no call has. -/
theorem move_of_request {first : LogMove} {request : LogRequest}
    (h : logging.request? first = some request) : ∃ files,
      logging.move first =
        { logging with files }.act request.settings request.console request.file ∧
      (∀ outlet, logging.files.Grows files outlet []) ∧
      ∀ place, request.file = some place →
        ∃ content, files.entry? place = some (.file content) := by
  cases first with
  | setUp settings =>
    obtain rfl := Option.some.inj h
    exact ⟨logging.files, rfl, fun outlet => .refl _ outlet, fun place hplace => by cases hplace⟩
  | setUpWithFile settings path =>
    rw [request?] at h
    cases hopen : logging.files.openAppend path with
    | error error =>
      rw [hopen] at h
      cases h
    | ok opened =>
      obtain ⟨place, files⟩ := opened
      rw [hopen] at h
      obtain rfl := Option.some.inj h
      refine ⟨files, ?_, FileTree.grows_openAppend hopen, fun other hother => ?_⟩
      · rw [move, setUpWithFile, hopen]
      · obtain rfl := Option.some.inj hother
        exact FileTree.file_of_openAppend hopen
  | install => cases h
  | emit event => cases h

/-! ## Before any call has asked -/

theorem Pending.head {first : LogMove} {rest : List LogMove} (h : start.Pending (first :: rest)) :
    start.request? first = none :=
  h [] first rest rfl

theorem Pending.tail {first : LogMove} {rest : List LogMove} (h : start.Pending (first :: rest))
    (hbroken : start.broken = false) : (start.move first).Pending rest := by
  intro front move back hrest
  have hnone := h (first :: front) move back (by rw [hrest, List.cons_append])
  rwa [follow_cons hbroken] at hnone

/-- A move that asks for nothing installs the application's subscriber at most, if no
pipeline is installed. -/
theorem move_of_pending {first : LogMove} (h : logging.request? first = none)
    (hbare : logging.subscriber = none ∨ logging.subscriber = some .foreign) :
    logging.move first =
      { logging with
        subscriber := if first = .install then some .foreign else logging.subscriber } := by
  cases first with
  | setUp settings => cases h
  | setUpWithFile settings path =>
    rw [request?] at h
    cases hopen : logging.files.openAppend path with
    | error error => rw [move_of_error hopen, if_neg LogMove.noConfusion]
    | ok opened =>
      rw [hopen] at h
      cases h
  | install =>
    obtain ⟨_, _, subscriber, _, _, _, _⟩ := logging
    obtain rfl | rfl : subscriber = none ∨ subscriber = some .foreign := hbare <;> rfl
  | emit event =>
    obtain ⟨_, _, subscriber, _, _, _, _⟩ := logging
    obtain rfl | rfl : subscriber = none ∨ subscriber = some .foreign := hbare <;> rfl

/-- As long as no call has asked for anything, nothing happens, except that the application
may install its subscriber. -/
theorem follow_of_pending (h : start.Pending moves) (hbroken : start.broken = false)
    (hbare : start.subscriber = none ∨ start.subscriber = some .foreign) :
    start.follow moves =
      { start with
        subscriber := if .install ∈ moves then some .foreign else start.subscriber } := by
  induction moves generalizing start with
  | nil => rfl
  | cons first rest ih =>
    have hmove := move_of_pending h.head hbare
    rw [follow_cons hbroken, ih (h.tail hbroken) (by rw [hmove]; exact hbroken) ?_, hmove]
    · by_cases hfirst : first = .install
      · simp [hfirst]
      · simp [hfirst, Ne.symm hfirst]
    · rw [hmove]
      by_cases hfirst : first = .install
      · exact Or.inr (if_pos hfirst)
      · rw [if_neg hfirst]
        exact hbare

/-- Either no call has asked for anything, or there is a first one. -/
theorem pending_or_first (start : Logging) (moves : List LogMove) :
    start.Pending moves ∨ ∃ earlier first later request, moves = earlier ++ first :: later ∧
      start.Pending earlier ∧ (start.follow earlier).request? first = some request := by
  induction moves using List.reverseRecOn with
  | nil =>
    refine Or.inl fun front move back hsplit => ?_
    cases front <;> cases hsplit
  | append_singleton moves last ih =>
    rcases ih with hpending | ⟨earlier, first, later, request, hsplit, hpending, hrequest⟩
    · cases hlast : (start.follow moves).request? last with
      | some request => exact Or.inr ⟨moves, last, [], request, rfl, hpending, hlast⟩
      | none =>
        refine Or.inl fun front move back hsplit => ?_
        rcases List.eq_nil_or_concat back with rfl | ⟨back, other, rfl⟩
        · obtain ⟨rfl, hmove⟩ := List.append_inj' hsplit rfl
          rw [← (List.cons.inj hmove).1]
          exact hlast
        · refine hpending front move back ?_
          have hfront : moves ++ [last] = (front ++ move :: back) ++ [other] := by simp [hsplit]
          exact (List.append_inj' hfront rfl).1
    · refine Or.inr ⟨earlier, first, later ++ [last], request, ?_, hpending, hrequest⟩
      rw [hsplit, List.append_assoc, List.cons_append]

/-! ## After the first call that asks -/

/-- The pipeline that is installed, if one is. -/
def pipeline? (logging : Logging) : Option Pipeline :=
  match logging.subscriber with
  | some (.pipeline pipeline) => some pipeline
  | _ => none

/-- Without a pipeline nothing is written. -/
theorem emit_of_silent (h : logging.pipeline? = none) (event : LogEvent) :
    logging.emit event = logging := by
  obtain ⟨_, _, subscriber, _, _, _, _⟩ := logging
  cases subscriber with
  | none => rfl
  | some subscriber =>
    cases subscriber with
    | foreign => rfl
    | pipeline pipeline => cases h

theorem emit_of_pipeline {pipeline : Pipeline} (h : logging.pipeline? = some pipeline)
    (event : LogEvent) :
    logging.emit event =
      if pipeline.filter.allows event.target.toList event.fields event.level then
        { logging with
          console := logging.console ++ [(⟨event, pipeline.console⟩ : LogLine)] }.writeTo event
            pipeline.file
      else logging := by
  obtain ⟨_, _, subscriber, _, _, _, _⟩ := logging
  cases subscriber with
  | none => cases h
  | some subscriber =>
    cases subscriber with
    | foreign => cases h
    | pipeline found =>
      obtain rfl : found = pipeline := Option.some.inj h
      rfl

/-- A call has acted, and what it has left behind is as it should be. -/
structure Settled (logging : Logging) : Prop where
  acted : logging.acted = true
  /-- A subscriber is installed, unless the process broke down. -/
  held : logging.broken = false → logging.subscriber ≠ none
  /-- The file of a pipeline is there. -/
  filed : ∀ pipeline place, logging.pipeline? = some pipeline → pipeline.file = some place →
    ∃ content, logging.files.entry? place = some (.file content)

/-- Nothing is new, except that lines went to the console and to a file, and that empty
files were made. -/
structure Writes (before after : Logging) (console : List LogLine) (outlet : Option Location)
    (lines : List FileChunk) : Prop where
  environment : after.environment = before.environment
  subscriber : after.subscriber = before.subscriber
  acted : after.acted = before.acted
  refused : after.refused = before.refused
  broken : after.broken = before.broken
  console : after.console = before.console ++ console
  files : before.files.Grows after.files outlet lines

namespace Writes

variable {first second third : Logging} {lines more : List LogLine} {outlet : Option Location}
  {written further : List FileChunk}

theorem refl (logging : Logging) (outlet : Option Location) :
    Writes logging logging [] outlet [] :=
  ⟨rfl, rfl, rfl, rfl, rfl, (List.append_nil _).symm, .refl logging.files outlet⟩

theorem trans (hfirst : Writes first second lines outlet written)
    (hsecond : Writes second third more outlet further) :
    Writes first third (lines ++ more) outlet (written ++ further) where
  environment := hsecond.environment.trans hfirst.environment
  subscriber := hsecond.subscriber.trans hfirst.subscriber
  acted := hsecond.acted.trans hfirst.acted
  refused := hsecond.refused.trans hfirst.refused
  broken := hsecond.broken.trans hfirst.broken
  console := by rw [hsecond.console, hfirst.console, List.append_assoc]
  files := hfirst.files.trans hsecond.files

theorem pipeline (h : Writes before after lines outlet written) :
    after.pipeline? = before.pipeline? := by
  rw [pipeline?, pipeline?, h.subscriber]

theorem settled (h : Writes before after lines outlet written) (hsettled : before.Settled) :
    after.Settled where
  acted := h.acted.trans hsettled.acted
  held hbroken := by
    rw [h.subscriber]
    exact hsettled.held (h.broken.symm.trans hbroken)
  filed pipeline place hpipeline hplace := by
    rw [h.pipeline] at hpipeline
    obtain ⟨content, hfile⟩ := hsettled.filed pipeline place hpipeline hplace
    exact ⟨_, h.files.files place content hfile⟩

end Writes

/-- What a pipeline writes is what its filter lets pass. -/
theorem Settled.emit {pipeline : Pipeline} (h : logging.Settled)
    (hpipeline : logging.pipeline? = some pipeline) (event : LogEvent) :
    Writes logging (logging.emit event) (pipeline.consoleLines [.emit event]) pipeline.file
      (pipeline.fileLines [.emit event]) := by
  have hpassed : pipeline.passed [.emit event] =
      if pipeline.filter.allows event.target.toList event.fields event.level then [event]
      else [] := by
    simp [Pipeline.passed, LogMove.event?, List.filter_cons]
  rw [emit_of_pipeline hpipeline, Pipeline.consoleLines, Pipeline.fileLines, hpassed]
  split
  · cases hfile : pipeline.file with
    | none => exact ⟨rfl, rfl, rfl, rfl, rfl, rfl, .of_no_outlet logging.files _⟩
    | some place =>
      obtain ⟨content, hcontent⟩ := h.filed pipeline place hpipeline hfile
      exact ⟨rfl, rfl, rfl, rfl, rfl, rfl, FileTree.grows_append hcontent _⟩
  · exact .refl logging pipeline.file

/-- A move that logs nothing makes an empty file at most, if a call has acted. -/
theorem Settled.writes_nothing {first : LogMove} (h : logging.Settled)
    (hbroken : logging.broken = false) (hevent : first.event? = none)
    (outlet : Option Location) : Writes logging (logging.move first) [] outlet [] := by
  have hact : ∀ files settings console file, { logging with files }.act settings console file =
      { logging with files } := by
    intro files settings console file
    rw [act]
    exact if_pos h.acted
  cases first with
  | emit event => cases hevent
  | setUp settings =>
    rw [move, setUp]
    exact (hact logging.files settings _ none).symm ▸ .refl logging outlet
  | setUpWithFile settings path =>
    cases hopen : logging.files.openAppend path with
    | error error =>
      rw [move_of_error hopen]
      exact .refl logging outlet
    | ok opened =>
      obtain ⟨place, files⟩ := opened
      have hmove : logging.move (.setUpWithFile settings path) = { logging with files } := by
        rw [move, setUpWithFile, hopen]
        exact hact files settings _ (some place)
      rw [hmove]
      exact ⟨rfl, rfl, rfl, rfl, rfl, (List.append_nil _).symm,
        FileTree.grows_openAppend hopen outlet⟩
  | install =>
    rw [move, install]
    cases hsubscriber : logging.subscriber with
    | none => exact absurd hsubscriber (h.held hbroken)
    | some subscriber => exact .refl logging outlet

/-- Once a call has acted, a pipeline gets everything that its filter lets pass. -/
theorem Settled.follow {pipeline : Pipeline} (h : logging.Settled)
    (hpipeline : logging.pipeline? = some pipeline) (hbroken : logging.broken = false)
    (moves : List LogMove) :
    Writes logging (logging.follow moves) (pipeline.consoleLines moves) pipeline.file
      (pipeline.fileLines moves) := by
  induction moves generalizing logging with
  | nil => exact .refl logging pipeline.file
  | cons first rest ih =>
    have hfirst : Writes logging (logging.move first) (pipeline.consoleLines [first])
        pipeline.file (pipeline.fileLines [first]) := by
      cases first with
      | emit event => exact h.emit hpipeline event
      | _ => exact h.writes_nothing hbroken rfl pipeline.file
    have hrest := ih (hfirst.settled h) (hfirst.pipeline.trans hpipeline)
      (hfirst.broken.trans hbroken)
    have hpassed : pipeline.passed (first :: rest) =
        pipeline.passed [first] ++ pipeline.passed rest := by
      rw [Pipeline.passed, ← List.singleton_append, List.filterMap_append, List.filter_append]
      rfl
    rw [follow_cons hbroken, Pipeline.consoleLines, Pipeline.fileLines, hpassed, List.map_append,
      List.map_append]
    exact hfirst.trans hrest

/-- If no pipeline is installed by then, nothing is ever written. -/
theorem Settled.follow_silent (h : logging.Settled) (hpipeline : logging.pipeline? = none)
    (moves : List LogMove) : Writes logging (logging.follow moves) [] none [] := by
  induction moves generalizing logging with
  | nil => exact .refl logging none
  | cons first rest ih =>
    cases hbroken : logging.broken with
    | true =>
      rw [follow_of_broken hbroken]
      exact .refl logging none
    | false =>
      have hfirst : Writes logging (logging.move first) [] none [] := by
        cases first with
        | emit event =>
          rw [move, emit_of_silent hpipeline]
          exact .refl logging none
        | _ => exact h.writes_nothing hbroken rfl none
      rw [follow_cons hbroken]
      exact hfirst.trans (ih (hfirst.settled h) (hfirst.pipeline.trans hpipeline))

/-! ## Who decides -/

/-- How the first call that asks for anything decides about everything after it. -/
structure Decided (before : Logging) (request : LogRequest) (later : List LogMove)
    (last : Logging) : Prop where
  acted : last.acted = true
  /-- If there was no subscriber, the call installs its pipeline, and whatever is logged
  later goes where this sends it. -/
  installed : ∀ filter, before.filter? request.settings = some filter → before.subscriber = none →
    last.subscriber = some (.pipeline (request.pipeline filter)) ∧ last.refused = before.refused ∧
      last.broken = false ∧
      last.console = before.console ++ (request.pipeline filter).consoleLines later ∧
      before.files.Grows last.files request.file ((request.pipeline filter).fileLines later)
  /-- If there was the application's subscriber, the call is refused, and this one stays. -/
  refused : ∀ filter, before.filter? request.settings = some filter →
    before.subscriber = some .foreign →
      last.subscriber = some .foreign ∧ last.refused = true ∧ last.broken = false ∧
        last.console = before.console ∧ before.files.Grows last.files none []
  /-- If a directive of the environment is torn, the process breaks down, and nothing is
  installed. -/
  torn : before.filter? request.settings = none →
    last.subscriber = before.subscriber ∧ last.refused = before.refused ∧ last.broken = true ∧
      last.console = before.console ∧ before.files.Grows last.files none []
  /-- The file of the call is there. -/
  opened : ∀ place, request.file = some place →
    ∃ content, last.files.entry? place = some (.file content)

section Act

variable (opened : Logging) {request : LogRequest} {filter : Filter} (hacted : opened.acted = false)

include hacted

theorem act_torn (hfilter : opened.filter? request.settings = none) :
    opened.act request.settings request.console request.file =
      { opened with acted := true, broken := true } := by
  rw [act, hacted, hfilter]
  rfl

theorem act_installs (hfilter : opened.filter? request.settings = some filter)
    (hsubscriber : opened.subscriber = none) :
    opened.act request.settings request.console request.file =
      { opened with
        acted := true
        subscriber := some (.pipeline (request.pipeline filter)) } := by
  rw [act, hacted, hfilter, hsubscriber]
  rfl

theorem act_refused (hfilter : opened.filter? request.settings = some filter)
    (hsubscriber : opened.subscriber = some .foreign) :
    opened.act request.settings request.console request.file =
      { opened with acted := true, refused := true } := by
  rw [act, hacted, hfilter, hsubscriber]
  rfl

end Act

/-- A call that asks for something before any other call has decides. -/
theorem decided_of_request {first : LogMove} {request : LogRequest} {later : List LogMove}
    (hacted : before.acted = false) (hbroken : before.broken = false)
    (hbare : before.subscriber = none ∨ before.subscriber = some .foreign)
    (hrequest : before.request? first = some request) :
    Decided before request later (before.follow (first :: later)) := by
  obtain ⟨files, hmove, hgrows, hopened⟩ := move_of_request hrequest
  let opened : Logging := { before with files }
  have hfilter : opened.filter? request.settings = before.filter? request.settings := rfl
  rw [follow_cons hbroken, hmove]
  cases hassembled : before.filter? request.settings with
  | none =>
    rw [opened.act_torn hacted (hfilter.trans hassembled), follow_of_broken rfl]
    refine ⟨rfl, fun filter hsome => ?_, fun filter hsome => ?_,
      fun _ => ⟨rfl, rfl, rfl, rfl, hgrows none⟩, hopened⟩
    · cases hassembled.symm.trans hsome
    · cases hassembled.symm.trans hsome
  | some filter =>
    rcases hbare with hnone | hforeign
    · rw [opened.act_installs hacted (hfilter.trans hassembled) hnone]
      let acting : Logging :=
        { opened with
          acted := true
          subscriber := some (.pipeline (request.pipeline filter)) }
      have hsettled : acting.Settled := by
        refine ⟨rfl, fun _ => Option.some_ne_none _, fun pipeline place hpipeline hplace => ?_⟩
        obtain rfl := Option.some.inj hpipeline
        exact hopened place hplace
      have hwrites : Writes acting (acting.follow later) _ _ _ :=
        hsettled.follow rfl hbroken later
      refine ⟨hwrites.acted, fun found hfound _ => ?_, fun _ _ hforeign => ?_,
        fun hnothing => ?_, fun place hplace =>
          (hwrites.settled hsettled).filed _ place hwrites.pipeline hplace⟩
      · obtain rfl := Option.some.inj (hassembled.symm.trans hfound)
        exact ⟨hwrites.subscriber, hwrites.refused, hwrites.broken.trans hbroken, hwrites.console,
          (hgrows request.file).trans hwrites.files⟩
      · cases hnone.symm.trans hforeign
      · cases hassembled.symm.trans hnothing
    · rw [opened.act_refused hacted (hfilter.trans hassembled) hforeign]
      let acting : Logging := { opened with acted := true, refused := true }
      have hsilent : acting.pipeline? = none := by
        rw [pipeline?, show acting.subscriber = some .foreign from hforeign]
      have hsettled : acting.Settled := by
        refine ⟨rfl, fun _ hnone => ?_, fun pipeline place hpipeline => ?_⟩
        · cases hforeign.symm.trans hnone
        · cases hsilent.symm.trans hpipeline
      have hwrites : Writes acting (acting.follow later) _ _ _ :=
        hsettled.follow_silent hsilent later
      refine ⟨hwrites.acted, fun _ _ hnone => ?_, fun _ _ _ => ?_, fun hnothing => ?_,
        fun place hplace => ?_⟩
      · cases hforeign.symm.trans hnone
      · exact ⟨hwrites.subscriber.trans hforeign, hwrites.refused, hwrites.broken.trans hbroken,
          hwrites.console.trans (List.append_nil _), (hgrows none).trans hwrites.files⟩
      · cases hassembled.symm.trans hnothing
      · obtain ⟨content, hfile⟩ := hopened place hplace
        exact ⟨_, hwrites.files.files place content hfile⟩

/-- **Logging is set up once**, by the first call that gets past opening its file, whatever
the environment and the files are, and whatever else happens.  A call that cannot open its
file reports the error and changes nothing. -/
theorem set_up_once (environment : String) (files : FileTree FileChunk) (moves : List LogMove) :
    let start : Logging := { environment, files }
    let last := start.follow moves
    (∀ settings path error, last.files.openAppend path = .error error →
      last.setUpWithFile settings path = .error error ∧
        start.follow (moves ++ [.setUpWithFile settings path]) = last) ∧
    (start.Pending moves →
      last = { start with subscriber := if .install ∈ moves then some .foreign else none }) ∧
    (∀ earlier first later request, moves = earlier ++ first :: later → start.Pending earlier →
      (start.follow earlier).request? first = some request →
        Decided (start.follow earlier) request later last) ∧
    (start.Pending moves ∨ ∃ earlier first later request, moves = earlier ++ first :: later ∧
      start.Pending earlier ∧ (start.follow earlier).request? first = some request) := by
  intro start last
  refine ⟨fun settings path error herror => ⟨setUpWithFile_error herror, ?_⟩,
    fun hpending => follow_of_pending hpending rfl (Or.inl rfl), ?_,
    start.pending_or_first moves⟩
  · rw [follow_append]
    cases hbroken : last.broken with
    | true => exact follow_of_broken hbroken _
    | false => exact (follow_cons hbroken _ []).trans (move_of_error herror)
  · rintro earlier first later request rfl hpending hrequest
    have hearlier := follow_of_pending hpending rfl (Or.inl rfl)
    have hlast : last = (start.follow earlier).follow (first :: later) := follow_append _ _ _
    rw [hlast]
    refine decided_of_request ?_ ?_ ?_ hrequest
    · rw [hearlier]
    · rw [hearlier]
    · rw [hearlier]
      by_cases hinstall : LogMove.install ∈ earlier
      · exact Or.inr (if_pos hinstall)
      · exact Or.inl (if_neg hinstall)

end Logging

/-! ## Sessions -/

/-- The moves that a call of a session makes. -/
def LogCall.moves : LogCall → List LogMove
  | .setUp settings => [.setUp settings]
  | .setUpWithFile settings path => [.setUpWithFile settings path]
  | .install => [.install]
  | .other => []

namespace LogSession

variable {session : LogSession}

theorem logging_call (h : session.logging.broken = false) (made : LogCall) :
    (session.call made).2.logging = session.logging.follow made.moves := by
  cases made with
  | setUp settings => exact (Logging.follow_cons h (.setUp settings) []).symm
  | setUpWithFile settings path =>
    rw [LogCall.moves, Logging.follow_cons h, Logging.follow, Logging.move, call]
    cases session.logging.setUpWithFile settings path with
    | error error => rfl
    | ok logging => rfl
  | install => exact (Logging.follow_cons h .install []).symm
  | other => rfl

/-- The calls of a session are moves, made one after the other. -/
theorem logging_callAll (h : session.logging.broken = false) (calls : List LogCall) :
    (session.callAll calls).2.logging = session.logging.follow (calls.flatMap LogCall.moves) := by
  induction calls generalizing session with
  | nil => rfl
  | cons made rest ih =>
    have hcall := logging_call h made
    rw [List.flatMap_cons, Logging.follow_append, ← hcall, callAll]
    generalize session.call made = result
    obtain ⟨view, after⟩ := result
    cases hbroken : after.logging.broken with
    | true => simp [hbroken, Logging.follow_of_broken hbroken]
    | false => simpa [hbroken] using ih hbroken

/-- Once a call has installed a pipeline, the calls of a session neither replace it nor write
anything. -/
theorem writes_nothing_callAll {pipeline : Pipeline} (h : session.logging.Settled)
    (hpipeline : session.logging.pipeline? = some pipeline)
    (hbroken : session.logging.broken = false) (calls : List LogCall) :
    Logging.Writes session.logging (session.callAll calls).2.logging [] pipeline.file [] := by
  have hevents : (calls.flatMap LogCall.moves).filterMap LogMove.event? = [] := by
    rw [List.filterMap_eq_nil_iff]
    intro move hmove
    obtain ⟨call, -, hcall⟩ := List.mem_flatMap.mp hmove
    cases call <;> simp_all [LogCall.moves, LogMove.event?]
  have hpassed : pipeline.passed (calls.flatMap LogCall.moves) = [] := by
    rw [Pipeline.passed, hevents, List.filter_nil]
  have hwrites := h.follow hpipeline hbroken (calls.flatMap LogCall.moves)
  rw [Pipeline.consoleLines, Pipeline.fileLines, hpassed, ← logging_callAll hbroken] at hwrites
  exact hwrites

end LogSession

end Workforce
