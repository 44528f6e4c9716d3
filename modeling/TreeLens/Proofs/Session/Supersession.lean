import TreeLens.Proofs.Language.Pool
import TreeLens.Session.Dispatch

/-!
# Superseded requests

At any moment at most one request is neither cancelled nor superseded, and it is the
last one. Whatever order the requests take their turns in, a request therefore resolves
to what the pool's parsers make of its text if no other request and no cancellation came
between, and to nothing otherwise, also when its parse could not even begin.
-/

namespace TreeLens

/-! ## Requests -/

namespace Background

/-- Only the live request is not cancelled, and it is the last one. -/
structure OneLive (background : Background) : Prop where
  last : ∀ number, background.live = some number → number + 1 = background.requests.length
  sole : ∀ number request, background.requests[number]? = some request →
    request.cancelled = false → background.live = some number

theorem oneLive_empty : OneLive {} := by
  constructor <;> simp

theorem length_cancel (background : Background) :
    background.cancel.requests.length = background.requests.length := by
  rw [cancel]
  split
  · rfl
  · exact List.length_modify ..

/-- Once the live request is cancelled, all of them are. -/
theorem OneLive.getElem?_cancel {background : Background} (oneLive : background.OneLive)
    {number : Nat} {request : Request} (found : background.requests[number]? = some request) :
    background.cancel.requests[number]? = some { request with cancelled := true } := by
  rcases request with ⟨revision, text, cancelled⟩
  cases cancelled with
  | false => simp [cancel, oneLive.sole number _ found rfl, found]
  | true =>
    rw [cancel]
    cases background.live with
    | none => exact found
    | some other => simp [List.getElem?_modify, found]

/-- Every request is cancelled by now. -/
theorem OneLive.cancelled_cancel {background : Background} (oneLive : background.OneLive)
    {number : Nat} {request : Request}
    (found : background.cancel.requests[number]? = some request) : request.cancelled = true := by
  have inside := (List.getElem?_eq_some_iff.mp found).1
  rw [length_cancel] at inside
  rw [oneLive.getElem?_cancel (List.getElem?_eq_getElem inside)] at found
  cases found
  rfl

theorem OneLive.cancel {background : Background} (oneLive : background.OneLive) :
    background.cancel.OneLive := by
  constructor
  · intro number alive
    rw [Background.cancel] at alive
    split at alive
    · rename_i dead
      rw [dead] at alive
      cases alive
    · cases alive
  · intro number request found running
    rw [oneLive.cancelled_cancel found] at running
    cases running

theorem OneLive.schedule {background : Background} (oneLive : background.OneLive)
    (revision : Revision) (text : String) : (background.schedule revision text).OneLive := by
  constructor
  · rintro number alive
    cases alive
    simp [Background.schedule]
  · intro number request found running
    rw [Background.schedule, List.getElem?_append] at found
    split at found
    · rw [oneLive.cancelled_cancel found] at running
      cases running
    · have here := (List.getElem?_eq_some_iff.mp found).1
      simp only [List.length_singleton] at here
      simp only [Background.schedule, Option.some.injEq]
      omega

end Background

/-! ## Turns of a request -/

namespace Stage

variable {registry : Registry} {language : String} {stock : Pool}

/-- A stage that a request can have come to with the parsers of a stock. Before it
resolves, a request that was not cancelled has met nothing but what the stock yields. -/
inductive Fits (registry : Registry) (language : String) (stock : Pool) (request : Request) :
    Stage → Prop where
  | waiting : Fits registry language stock request waiting
  | parsing (parser : Parser) (offered : stock.Offers registry language parser) :
    Fits registry language stock request (parsing parser)
  | parsed (parser : Parser) (outline : Option Outline)
    (offered : stock.Offers registry language parser)
    (complete : request.cancelled = false → outline = parser.grammar.parse? request.text) :
    Fits registry language stock request (parsed parser outline)
  | answered (answer : Answer)
    (earned : request.cancelled = false →
      ∃ result, stock.Yields registry language request.text result ∧
        answer = result.map fun tree => some (request.outcome tree)) :
    Fits registry language stock request (answered answer)
  | resolved (answer : Answer) : Fits registry language stock request (resolved answer)

/-- Nothing is asked of the stage of a cancelled request but its parser. -/
theorem Fits.cancel {request : Request} {stage : Stage}
    (fits : Fits registry language stock request stage) :
    Fits registry language stock { request with cancelled := true } stage := by
  cases fits with
  | waiting => exact .waiting
  | parsing parser offered => exact .parsing parser offered
  | parsed parser outline offered complete => exact .parsed parser outline offered nofun
  | answered answer earned => exact .answered answer nofun
  | resolved answer => exact .resolved answer

/-- A turn keeps the stage fitting and the pool stocked. -/
theorem Fits.advance {request : Request} {stage : Stage} {pool : Pool}
    (fits : Fits registry language stock request stage)
    (stocked : pool.StockedBy registry language stock) (stop : Bool) :
    let turn := request.advance registry language stop pool stage
    Fits registry language stock request turn.1 ∧ turn.2.StockedBy registry language stock := by
  cases fits with
  | waiting =>
    have way := pool.acquires registry language
    rw [Request.advance]
    generalize pool.acquire registry language = acquired at way ⊢
    cases way with
    | idle parser rest waiting =>
      rcases stocked.take waiting with ⟨offered, stockedRest⟩
      exact ⟨.parsing parser offered, stockedRest⟩
    | made parser _ created => exact ⟨.parsing parser (.inr created), stocked⟩
    | refused fault _ failed =>
      exact ⟨.answered _ fun _ => ⟨.error fault, .refused fault failed, rfl⟩, stocked⟩
  | parsing parser offered =>
    refine ⟨.parsed parser _ offered fun running => ?_, stocked⟩
    simp [running]
  | parsed parser outline offered complete =>
    refine ⟨.answered _ fun running => ?_, stocked.release offered⟩
    simp only [running, Bool.and_false, Bool.false_eq_true, if_false]
    exact ⟨_, complete running ▸ .parsed parser offered, rfl⟩
  | answered answer earned => exact ⟨.resolved _, stocked⟩
  | resolved answer => exact ⟨.resolved answer, stocked⟩

/-- How many turns are left, at most, before the request resolves. -/
def remaining : Stage → Nat
  | waiting => 4
  | parsing _ => 3
  | parsed _ _ => 2
  | answered _ => 1
  | resolved _ => 0

/-- Every turn brings a request nearer to its end. -/
theorem remaining_advance (registry : Registry) (language : String) (stop : Bool)
    (request : Request) (pool : Pool) (stage : Stage) :
    (request.advance registry language stop pool stage).1.remaining ≤ stage.remaining - 1 := by
  cases stage with
  | waiting =>
    simp only [Request.advance]
    cases pool.acquire registry language <;> simp [remaining]
  | parsing parser => exact Nat.le_refl _
  | parsed parser outline => exact Nat.le_refl _
  | answered answer => exact Nat.le_refl _
  | resolved answer => exact Nat.le_refl _

end Stage

/-! ## Moves -/

namespace Dispatch

variable {registry : Registry} {language : String} {stock : Pool}

/-- What holds of every dispatch that began with the parsers of a stock. -/
structure Sound (registry : Registry) (language : String) (stock : Pool) (dispatch : Dispatch) :
    Prop where
  stocked : dispatch.pool.StockedBy registry language stock
  oneLive : dispatch.background.OneLive
  length : dispatch.stages.length = dispatch.background.requests.length
  fits : ∀ (number : Nat) (request : Request) (stage : Stage),
    dispatch.background.requests[number]? = some request →
    dispatch.stages[number]? = some stage → stage.Fits registry language stock request

theorem sound_opened : Sound registry language stock { pool := stock } where
  stocked := stock.stockedBy_refl
  oneLive := Background.oneLive_empty
  length := rfl
  fits := by simp

/-- Whatever has come to some stage was requested. -/
theorem Sound.exists_request {dispatch : Dispatch} (sound : dispatch.Sound registry language stock)
    {number : Nat} {stage : Stage} (reached : dispatch.stages[number]? = some stage) :
    ∃ request, dispatch.background.requests[number]? = some request := by
  have inside := (List.getElem?_eq_some_iff.mp reached).1
  rw [sound.length] at inside
  exact ⟨_, List.getElem?_eq_getElem inside⟩

/-- Whatever was requested has come to some stage. -/
theorem Sound.exists_stage {dispatch : Dispatch} (sound : dispatch.Sound registry language stock)
    {number : Nat} {request : Request}
    (found : dispatch.background.requests[number]? = some request) :
    ∃ stage, dispatch.stages[number]? = some stage := by
  have inside := (List.getElem?_eq_some_iff.mp found).1
  rw [← sound.length] at inside
  exact ⟨_, List.getElem?_eq_getElem inside⟩

/-- A turn of a request that was made. -/
theorem step_advance {dispatch : Dispatch} {number : Nat} {request : Request} {stage : Stage}
    (found : dispatch.background.requests[number]? = some request)
    (reached : dispatch.stages[number]? = some stage) (stop : Bool) :
    dispatch.step registry language (.advance number stop) =
      { dispatch with
        pool := (request.advance registry language stop dispatch.pool stage).2
        stages := dispatch.stages.set number
          (request.advance registry language stop dispatch.pool stage).1 } := by
  rw [step, found, reached]

theorem background_advance (dispatch : Dispatch) (number : Nat) (stop : Bool) :
    (dispatch.step registry language (.advance number stop)).background = dispatch.background := by
  rw [step]
  split <;> rfl

/-- Requests stay in their places. Whatever supersedes cancels all of them, and nothing
else changes them. -/
theorem Sound.getElem?_requests_step {dispatch : Dispatch}
    (sound : dispatch.Sound registry language stock) {number : Nat} {request : Request}
    (found : dispatch.background.requests[number]? = some request) (move : Move) :
    (dispatch.step registry language move).background.requests[number]? =
      some { request with cancelled := request.cancelled || move.supersedes } := by
  have cancelled := sound.oneLive.getElem?_cancel found
  cases move with
  | schedule revision text =>
    have inside := (List.getElem?_eq_some_iff.mp cancelled).1
    rw [Move.supersedes, Bool.or_true]
    exact (List.getElem?_append_left inside).trans cancelled
  | cancel =>
    rw [Move.supersedes, Bool.or_true]
    exact cancelled
  | advance other stop =>
    rw [background_advance, Move.supersedes, Bool.or_false]
    exact found

/-- A stage still fits its request when others are made or cancelled. -/
theorem Sound.fits_step {dispatch : Dispatch} (sound : dispatch.Sound registry language stock)
    {move : Move} {number : Nat} {request : Request} {stage : Stage}
    (found : (dispatch.step registry language move).background.requests[number]? = some request)
    (reached : dispatch.stages[number]? = some stage) :
    stage.Fits registry language stock request := by
  rcases sound.exists_request reached with ⟨⟨revision, text, cancelled⟩, before⟩
  have fits := sound.fits number _ stage before reached
  rw [sound.getElem?_requests_step before move] at found
  cases found
  cases cancelled with
  | true => exact fits
  | false =>
    cases move.supersedes with
    | false => exact fits
    | true => exact fits.cancel

theorem Sound.step {dispatch : Dispatch} (sound : dispatch.Sound registry language stock)
    (move : Move) : (dispatch.step registry language move).Sound registry language stock := by
  cases move with
  | schedule revision text =>
    constructor
    · exact sound.stocked
    · exact sound.oneLive.schedule revision text
    · simp [Dispatch.step, Background.schedule, Background.length_cancel, sound.length]
    · intro number request stage found reached
      rw [Dispatch.step, List.getElem?_append] at reached
      split at reached
      · exact sound.fits_step found reached
      · rcases List.mem_singleton.mp (List.mem_of_getElem? reached) with rfl
        exact .waiting
  | cancel =>
    constructor
    · exact sound.stocked
    · exact sound.oneLive.cancel
    · exact sound.length.trans dispatch.background.length_cancel.symm
    · intro number request stage found reached
      exact sound.fits_step found reached
  | advance other stop =>
    cases made : dispatch.background.requests[other]? with
    | none => simpa [Dispatch.step, made] using sound
    | some request =>
      cases come : dispatch.stages[other]? with
      | none => simpa [Dispatch.step, made, come] using sound
      | some stage =>
        rw [step_advance made come]
        rcases (sound.fits other request stage made come).advance sound.stocked stop
          with ⟨fits, stocked⟩
        refine ⟨stocked, sound.oneLive, List.length_set.trans sound.length, ?_⟩
        intro number asked reached found came
        by_cases here : other = number
        · subst here
          rw [List.getElem?_set_self (List.getElem?_eq_some_iff.mp come).1] at came
          cases came
          cases made.symm.trans found
          exact fits
        · rw [List.getElem?_set_ne here] at came
          exact sound.fits number asked reached found came

theorem Sound.run {dispatch : Dispatch} (sound : dispatch.Sound registry language stock)
    (moves : List Move) : (dispatch.run registry language moves).Sound registry language stock := by
  induction moves generalizing dispatch with
  | nil => exact sound
  | cons move moves ih => exact ih (sound.step move)

/-- After any moves a request is cancelled if it was before or one of them supersedes. -/
theorem Sound.getElem?_requests_run {dispatch : Dispatch}
    (sound : dispatch.Sound registry language stock) {number : Nat} {request : Request}
    (found : dispatch.background.requests[number]? = some request) (moves : List Move) :
    (dispatch.run registry language moves).background.requests[number]? =
      some { request with cancelled := request.cancelled || moves.any Move.supersedes } := by
  induction moves generalizing dispatch request with
  | nil => simpa [Dispatch.run] using found
  | cons move moves ih =>
    have later := ih (sound.step move) (sound.getElem?_requests_step found move)
    rw [Bool.or_assoc] at later
    exact later

/-! ## Answers -/

theorem answer?_eq_some_iff {dispatch : Dispatch} {number : Nat} {answer : Answer} :
    dispatch.answer? number = some answer ↔
      dispatch.stages[number]? = some (.resolved answer) := by
  rw [answer?]
  split <;> simp_all

/-- A move gives a turn to a request or leaves its stage alone. -/
theorem getElem?_stages_step {dispatch : Dispatch} {number : Nat} {request : Request}
    {stage : Stage} (found : dispatch.background.requests[number]? = some request)
    (reached : dispatch.stages[number]? = some stage) (move : Move) :
    (∃ stop, move = .advance number stop ∧
      (dispatch.step registry language move).stages[number]? =
        some (request.advance registry language stop dispatch.pool stage).1) ∨
    move.advances number = false ∧
      (dispatch.step registry language move).stages[number]? = some stage := by
  have inside := (List.getElem?_eq_some_iff.mp reached).1
  cases move with
  | schedule revision text => exact .inr ⟨rfl, (List.getElem?_append_left inside).trans reached⟩
  | cancel => exact .inr ⟨rfl, reached⟩
  | advance other stop =>
    by_cases here : other = number
    · subst here
      refine .inl ⟨stop, rfl, ?_⟩
      rw [step_advance found reached]
      exact List.getElem?_set_self inside
    · refine .inr ⟨decide_eq_false here, ?_⟩
      rw [step]
      split
      · exact (List.getElem?_set_ne here).trans reached
      · exact reached

/-- A request resolves to nothing if it was cancelled before, and to what the stock
yields if not. -/
theorem Sound.answer?_step {dispatch : Dispatch} (sound : dispatch.Sound registry language stock)
    {number : Nat} {request : Request} {move : Move} {answer : Answer}
    (found : dispatch.background.requests[number]? = some request)
    (pending : dispatch.answer? number = none)
    (answered : (dispatch.step registry language move).answer? number = some answer) :
    (request.cancelled = true → answer = .ok none) ∧
      (request.cancelled = false → ∃ result, stock.Yields registry language request.text result ∧
        answer = result.map fun tree => some (request.outcome tree)) := by
  rcases sound.exists_stage found with ⟨stage, reached⟩
  have fits := sound.fits number request stage found reached
  rw [answer?_eq_some_iff] at answered
  rcases getElem?_stages_step found reached move with ⟨stop, -, turned⟩ | ⟨-, same⟩
  · rw [turned] at answered
    have resolved := Option.some.inj answered
    -- Only a request that has its answer resolves in a turn.
    cases fits with
    | waiting =>
      simp only [Request.advance] at resolved
      split at resolved <;> cases resolved
    | parsing parser offered => cases resolved
    | parsed parser outline offered complete => cases resolved
    | resolved answer => simp [answer?, reached] at pending
    | answered answer earned =>
      cases resolved
      constructor
      · intro cancelled
        exact if_pos cancelled
      · intro running
        rw [if_neg (by simp [running])]
        exact earned running
  · rw [same] at answered
    cases answered
    simp [answer?, reached] at pending

/-- A request resolves once. -/
theorem Sound.answer?_step_of_some {dispatch : Dispatch}
    (sound : dispatch.Sound registry language stock) {number : Nat} {answer : Answer}
    (answered : dispatch.answer? number = some answer) (move : Move) :
    (dispatch.step registry language move).answer? number = some answer := by
  rw [answer?_eq_some_iff] at answered ⊢
  rcases sound.exists_request answered with ⟨request, found⟩
  rcases getElem?_stages_step found answered move with ⟨stop, -, turned⟩ | ⟨-, same⟩
  · exact turned
  · exact same

theorem Sound.answer?_run_of_some {dispatch : Dispatch}
    (sound : dispatch.Sound registry language stock) {number : Nat} {answer : Answer}
    (answered : dispatch.answer? number = some answer) (moves : List Move) :
    (dispatch.run registry language moves).answer? number = some answer := by
  induction moves generalizing dispatch with
  | nil => exact answered
  | cons move moves ih => exact ih (sound.step move) (sound.answer?_step_of_some answered move)

/-- A request that was cancelled before it resolved comes to nothing. -/
theorem Sound.answer?_run_of_cancelled {dispatch : Dispatch}
    (sound : dispatch.Sound registry language stock) {number : Nat} {request : Request}
    (found : dispatch.background.requests[number]? = some request)
    (cancelled : request.cancelled = true) (pending : dispatch.answer? number = none)
    {moves : List Move} {answer : Answer}
    (answered : (dispatch.run registry language moves).answer? number = some answer) :
    answer = .ok none := by
  induction moves generalizing dispatch request with
  | nil => cases pending.symm.trans answered
  | cons move moves ih =>
    cases next : (dispatch.step registry language move).answer? number with
    | none =>
      exact ih (sound.step move) (sound.getElem?_requests_step found move) (by simp [cancelled])
        next answered
    | some resolved =>
      have kept := (sound.step move).answer?_run_of_some next moves
      cases kept.symm.trans answered
      exact (sound.answer?_step found pending next).1 cancelled

/-- Every turn of a request takes it one stage on at least, and no other move takes it
back. -/
theorem Sound.exists_stage_run {dispatch : Dispatch}
    (sound : dispatch.Sound registry language stock) {number : Nat} {stage : Stage}
    (reached : dispatch.stages[number]? = some stage) (moves : List Move) :
    ∃ later, (dispatch.run registry language moves).stages[number]? = some later ∧
      later.remaining ≤ stage.remaining - moves.countP (Move.advances number) := by
  induction moves generalizing dispatch stage with
  | nil => exact ⟨stage, reached, Nat.le_refl _⟩
  | cons move moves ih =>
    rcases sound.exists_request reached with ⟨request, found⟩
    rw [List.countP_cons]
    rcases getElem?_stages_step found reached move with ⟨stop, rfl, turned⟩ | ⟨other, same⟩
    · have nearer := Stage.remaining_advance registry language stop request dispatch.pool stage
      rcases ih (sound.step _) turned with ⟨later, come, left⟩
      refine ⟨later, come, ?_⟩
      simp only [Move.advances, decide_true, if_true]
      omega
    · rcases ih (sound.step move) same with ⟨later, come, left⟩
      refine ⟨later, come, ?_⟩
      simpa [other] using left

theorem length_requests_run (dispatch : Dispatch) (moves : List Move) :
    (dispatch.run registry language moves).background.requests.length =
      dispatch.background.requests.length + moves.countP Move.schedules := by
  induction moves generalizing dispatch with
  | nil => rfl
  | cons move moves ih =>
    refine (ih _).trans ?_
    rw [List.countP_cons]
    cases move with
    | schedule revision text =>
      simp [step, Background.schedule, Background.length_cancel, Move.schedules]
      omega
    | cancel => simp [step, Background.length_cancel, Move.schedules]
    | advance number stop => simp [background_advance, Move.schedules]

/-- While nobody else moves, a request has the pool to itself. -/
theorem getElem?_stages_turns {dispatch : Dispatch} {number : Nat} {request : Request}
    {stage : Stage} (found : dispatch.background.requests[number]? = some request)
    (reached : dispatch.stages[number]? = some stage) (stops : List Bool) :
    (dispatch.run registry language (stops.map (Move.advance number))).stages[number]? =
      some (stops.foldl (fun turn stop => request.advance registry language stop turn.2 turn.1)
        (stage, dispatch.pool)).1 := by
  induction stops generalizing dispatch stage with
  | nil => exact reached
  | cons stop stops ih =>
    have inside := (List.getElem?_eq_some_iff.mp reached).1
    change ((dispatch.step registry language (.advance number stop)).run registry language
      (stops.map (Move.advance number))).stages[number]? = _
    rw [step_advance found reached]
    exact ih found (List.getElem?_set_self inside)

/-- A request that takes all its turns at once comes to what is said of a parse that
finishes now. -/
theorem Sound.answer?_run_turns {dispatch : Dispatch}
    (sound : dispatch.Sound registry language stock) {number : Nat}
    (reached : dispatch.stages[number]? = some .waiting) (first second third last : Bool) :
    (dispatch.run registry language
        ([first, second, third, last].map (Move.advance number))).answer? number =
      some (dispatch.background.finish
        (fun text => (dispatch.pool.parse registry language text).1) number) := by
  rcases sound.exists_request reached with ⟨request, found⟩
  rw [answer?_eq_some_iff, getElem?_stages_turns found reached, Background.finish, found]
  simp only [List.foldl_cons, List.foldl_nil, Request.advance, Pool.parse]
  cases dispatch.pool.acquire registry language with
  | error fault => rfl
  | ok taken => cases request.cancelled <;> simp [Request.outcome]

/-- A request takes the next place, uncancelled, and waits there. -/
theorem Sound.exists_request_run {dispatch : Dispatch}
    (sound : dispatch.Sound registry language stock) (revision : Revision) (text : String)
    (moves : List Move) :
    let number := dispatch.background.requests.length
    let scheduled := dispatch.step registry language (.schedule revision text)
    scheduled.stages[number]? = some .waiting ∧
      (scheduled.run registry language moves).background.requests[number]? =
        some ⟨revision, text, moves.any Move.supersedes⟩ := by
  intro number scheduled
  have made : scheduled.background.requests[number]? = some ⟨revision, text, false⟩ := by
    simp [number, scheduled, Dispatch.step, Background.schedule,
      ← dispatch.background.length_cancel]
  constructor
  · simp [number, scheduled, Dispatch.step, ← sound.length]
  · exact (sound.step _).getElem?_requests_run made moves

theorem run_append (dispatch : Dispatch) (before after : List Move) :
    dispatch.run registry language (before ++ after) =
      (dispatch.run registry language before).run registry language after :=
  List.foldl_append

/-- Let a request be made after some moves, and others follow. When it resolves, it
comes to nothing if one of these supersedes it, whatever its parse has come to by then.
If not, it comes to what the pool makes of its text, or to the fault that kept it from
that. It resolves once, after four turns at the latest, and whatever it delivers has its
own revision and text. Among the requests that have not resolved at some moment, only
the last one made can come to anything but nothing. -/
theorem run_delivers_live (registry : Registry) (language : String) (pool : Pool) :
    let run := Dispatch.run registry language { pool := pool }
    (∀ (before between : List Move) (revision : Revision) (text : String) (move : Move)
        (answer : Answer),
      let number := before.countP Move.schedules
      let reached := run (before ++ .schedule revision text :: between)
      let resolved := reached.step registry language move
      reached.answer? number = none → resolved.answer? number = some answer →
      (between.any Move.supersedes = true → answer = .ok none) ∧
      (between.any Move.supersedes = false →
        ∃ result, pool.Yields registry language text result ∧
          answer = result.map fun tree => some ⟨revision, text, tree⟩) ∧
      (∀ outcome, answer = .ok (some outcome) →
        outcome.revision = revision ∧ outcome.text = text) ∧
      ∀ after, (resolved.run registry language after).answer? number = some answer) ∧
    (∀ (before after : List Move) (revision : Revision) (text : String),
      let number := before.countP Move.schedules
      4 ≤ after.countP (Move.advances number) →
      ∃ answer, (run (before ++ .schedule revision text :: after)).answer? number = some answer) ∧
    ∀ (moves after : List Move) (number : Nat) (answer : Answer),
      number < moves.countP Move.schedules → (run moves).answer? number = none →
      (run (moves ++ after)).answer? number = some answer → answer ≠ .ok none →
      number + 1 = moves.countP Move.schedules := by
  intro run
  have sound (moves : List Move) : (run moves).Sound registry language pool :=
    sound_opened.run moves
  have count (moves : List Move) :
      (run moves).background.requests.length = moves.countP Move.schedules := by
    simp [run, length_requests_run]
  have scheduled (before after : List Move) (revision : Revision) (text : String) :
      run (before ++ .schedule revision text :: after) =
        ((run before).step registry language (.schedule revision text)).run registry language
          after :=
    run_append ..
  refine ⟨?_, ?_, ?_⟩
  · intro before between revision text move answer number reached resolved pending answered
    have found : reached.background.requests[number]? =
        some ⟨revision, text, between.any Move.supersedes⟩ := by
      have made := ((sound before).exists_request_run revision text between).2
      rwa [count, ← scheduled] at made
    have soundReached := sound (before ++ .schedule revision text :: between)
    rcases soundReached.answer?_step found pending answered with ⟨nothing, something⟩
    refine ⟨nothing, something, ?_, ?_⟩
    · rintro outcome rfl
      cases superseded : between.any Move.supersedes with
      | true => cases nothing superseded
      | false =>
        rcases something superseded with ⟨result, -, delivered⟩
        cases result with
        | error fault => cases delivered
        | ok tree =>
          cases delivered
          exact ⟨rfl, rfl⟩
    · exact (soundReached.step move).answer?_run_of_some answered
  · intro before after revision text number turns
    have waits := ((sound before).exists_request_run revision text after).1
    rw [count] at waits
    rcases ((sound before).step _).exists_stage_run waits after with ⟨stage, reached, left⟩
    rw [Stage.remaining, Nat.sub_eq_zero_of_le turns, Nat.le_zero] at left
    cases stage with
    | resolved answer =>
      refine ⟨answer, answer?_eq_some_iff.mpr ?_⟩
      rwa [scheduled]
    | _ => cases left
  · intro moves after number answer inside pending answered delivered
    rw [← count] at inside ⊢
    have found := List.getElem?_eq_getElem inside
    apply (sound moves).oneLive.last
    apply (sound moves).oneLive.sole number _ found
    -- A cancelled request would come to nothing, so this one is the live one.
    cases state : (run moves).background.requests[number].cancelled with
    | false => rfl
    | true =>
      have later := (run_append _ moves after ▸ answered :
        ((run moves).run registry language after).answer? number = some answer)
      exact absurd ((sound moves).answer?_run_of_cancelled found state pending later) delivered

/-- In an unknown language, the first request has failed already when the second one
supersedes it, and comes to nothing all the same. In a known one, the second is delivered
while the first is still parsing. -/
theorem run_delivers_live_second_of_two :
    let registry := Registry.builtin ⟨fun _ => some ⟨⟨{ kind := "file" }, ⟨0, 1⟩⟩, .nil⟩⟩
    let first : List Move := [.schedule ⟨0⟩ "a", .advance 0 false]
    let lost := Dispatch.run registry "klingon" { pool := .empty }
      (first ++ [.schedule ⟨1⟩ "b"])
    let live := Dispatch.run registry "rust" { pool := .empty }
      (first ++ .schedule ⟨1⟩ "b" :: List.replicate 3 (.advance 1 false))
    lost.stages = [.answered (.error (.languageNotFound "klingon")), .waiting] ∧
      (lost.step registry "klingon" (.advance 0 false)).answer? 0 = some (.ok none) ∧
      ∃ outcome, (live.step registry "rust" (.advance 1 false)).answer? 1 =
          some (.ok (some outcome)) ∧
        outcome.revision = ⟨1⟩ ∧ outcome.text = "b" := by
  intro registry first lost live
  refine ⟨rfl, ?_, ?_⟩
  · have resolves : ((lost.step registry "klingon" (.advance 0 false)).answer? 0).isSome := by
      decide +kernel
    rcases Option.isSome_iff_exists.mp resolves with ⟨answer, resolved⟩
    have superseded := (run_delivers_live registry "klingon" .empty).1 []
      [.advance 0 false, .schedule ⟨1⟩ "b"] ⟨0⟩ "a" (.advance 0 false) answer rfl resolved
    rw [resolved, superseded.1 rfl]
  · have delivers : ((live.step registry "rust" (.advance 1 false)).answer? 1).map
        (fun answer => answer.toOption.join.isSome) = some true := by
      decide +kernel
    rcases Option.map_eq_some_iff.mp delivers with ⟨answer, resolved, delivered⟩
    have unresolved : live.answer? 1 = none := Option.isNone_iff_eq_none.mp (by decide +kernel)
    have carried := (run_delivers_live registry "rust" .empty).1 first
      (List.replicate 3 (.advance 1 false)) ⟨1⟩ "b" (.advance 1 false) answer unresolved resolved
    rcases answer with fault | outcome | outcome
    · cases delivered
    · cases delivered
    · exact ⟨outcome, resolved, carried.2.2.1 outcome rfl⟩

end Dispatch

end TreeLens
