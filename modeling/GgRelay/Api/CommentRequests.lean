import GgRelay.Api.Comments
import GgRelay.Api.Roles
import GgRelay.Lib.System

/-!
The routes over the comments (`api/routers/comments.py`), with any number of requests under way.

* A request is suspended at the calls of `Pc`, and `resume` is what it does next; `system` has all
  requests interleaved;
* `serve` is a request that nothing comes in between;
* `linearizable`: the requests might as well be served one at a time;
* `comment_life`: who created, edited and deleted a comment, and what is shown of it.
-/

namespace GgRelay

namespace Comments

open Cost Roles

/-! ### Requests -/

/-- What a request is for. -/
inductive Op where
  | create (sessionId body : String)
  | update (id : ℤ) (body : String)
  | delete (id : ℤ)
  deriving DecidableEq, Repr

/-- A request to one of the routes that write. -/
structure Request where
  caller : Caller
  op : Op

/-- What the routes raise. -/
inductive Rejection where
  | forbidden (detail : Forbidden)
  /-- 422 -/
  | unprocessable
  | sessionNotFound
  | commentNotFound
  | forbiddenCommentEdit (commentAuthor currentActor : String)
  | forbiddenCommentDelete (commentAuthor currentActor currentRole : String)
  /-- 409 -/
  | commentUpdateFailed
  /-- 500 -/
  | serverError
  deriving DecidableEq, Repr

/-- What is shown of a comment. -/
structure Shown where
  id : ℤ
  sessionId : String
  author : String
  bodyMarkdown : String
  bodyHtml : String
  createdAt : Time
  updatedAt : Time
  deriving DecidableEq, Repr

/-- `_serialize`. -/
def Comment.serialize (c : Comment) : Shown where
  id := c.id
  sessionId := c.sessionId
  author := c.author
  bodyMarkdown := c.bodyMarkdown
  bodyHtml := c.bodyHtml
  createdAt := c.createdAt
  updatedAt := c.updatedAt

/-- What a client gets. -/
inductive Response where
  | comment (row : Shown)
  | noContent
  | rejected (r : Rejection)
  deriving DecidableEq, Repr

/-- A row of the audit log; its `target_type` is always `comment`. -/
structure AuditEntry where
  actor : String
  action : String
  targetId : Option ℤ
  sessionId : String
  bodyLen : Option ℕ
  deriving DecidableEq, Repr

/-- `_BODY_MIN_LEN`, `_BODY_MAX_LEN`. -/
def validBody (body : String) : Bool := 1 ≤ body.length && body.length ≤ 8000

namespace Request

variable (q : Request)

/-- What comes before the route. -/
def permit : Except Rejection Unit :=
  match q.op with
  | .create _ body =>
      match requireRole "submitter" q.caller with
      | .error detail => .error (.forbidden detail)
      | .ok _ => if validBody body then .ok () else .error .unprocessable
  | .update _ body => if validBody body then .ok () else .error .unprocessable
  | .delete _ => .ok ()

/-- What the route makes of the session or the comment that it reads first; the session of the
comment. -/
def check (b : Board) : Except Rejection String :=
  match q.op with
  | .create sessionId _ => if sessionId ∈ b.sessions then .ok sessionId else .error .sessionNotFound
  | .update id _ =>
      match (b.comments.get? id).filter (·.deletedAt.isNone) with
      | none => .error .commentNotFound
      | some c =>
          if c.author ≠ q.caller.label then
            .error (.forbiddenCommentEdit c.author q.caller.label)
          else .ok c.sessionId
  | .delete id =>
      match (b.comments.get? id).filter (·.deletedAt.isNone) with
      | none => .error .commentNotFound
      | some c =>
          if ¬(c.author = q.caller.label ∨ q.caller.isAdmin) then
            .error (.forbiddenCommentDelete c.author q.caller.label q.caller.resolveRole)
          else .ok c.sessionId

/-- What it then does. -/
def act (now : Time) (id : ℤ) : Act :=
  match q.op with
  | .create sessionId body => .create q.caller.label sessionId body now id
  | .update id' body => .update q.caller.label id' body now
  | .delete id' => .delete q.caller.label q.caller.isAdmin id' now

/-- What it raises if that has touched no row; an `IntegrityError` of the insertion is not caught. -/
def missed : Rejection :=
  match q.op with
  | .create _ _ => .serverError
  | .update _ _ => .commentUpdateFailed
  | .delete _ => .commentNotFound

/-- The audit row of what it has done. -/
def auditEntry (sessionId : String) (a : Act) : AuditEntry where
  actor := q.caller.label
  action :=
    match q.op with
    | .create _ _ => "comment_create"
    | .update _ _ => "comment_update"
    | .delete _ => "comment_delete"
  targetId := a.commentId
  sessionId := sessionId
  bodyLen :=
    match q.op with
    | .create _ body | .update _ body => some body.length
    | .delete _ => none

end Request

/-- Where a request is suspended. -/
inductive Pc where
  /-- at `get_session` or `get_comment` -/
  | check
  /-- at the statement that writes -/
  | write (sessionId : String)
  /-- at `audit.record` -/
  | audit (entry : AuditEntry) (next : Pc)
  /-- at the second `get_comment` of an edit -/
  | reread
  | done (r : Response)

/-- What becomes of a call. -/
inductive Reply where
  | returned
  /-- it has taken effect, and raises all the same -/
  | lost
  | raised
  deriving DecidableEq, Repr

/-- What a request does until its next call: what it has changed in the tables, its audit row. -/
structure Outcome where
  effect : Option (Act × Board) := none
  audit : Option AuditEntry := none
  pc : Pc

/-- No route catches what its calls raise. -/
def serverError : Pc := .done (.rejected .serverError)

section Serve

variable (render : String → String)

/-- What comes after the audit row. -/
def Request.next (q : Request) (now : Time) (id : ℤ) : Pc :=
  match q.op with
  | .create sessionId body =>
      .done (.comment (newComment render q.caller.label sessionId body now id).serialize)
  | .update _ _ => .reread
  | .delete _ => .done .noContent

/-- The answer to an edit; `none` fails an assertion. -/
def Request.reread (q : Request) (b : Board) : Response :=
  match q.op with
  | .update id _ =>
      (b.comments.get? id).elim (.rejected .serverError) fun c => .comment c.serialize
  | _ => .rejected .serverError

/-- The next call of a request, and what follows. -/
def resume (b : Board) (q : Request) (reply : Reply) (now : Time) (id : ℤ) : Pc → Option Outcome
  | .check =>
      if reply = .returned then
        match q.check b with
        | .error r => some { pc := .done (.rejected r) }
        | .ok sessionId => some { pc := .write sessionId }
      else some { pc := serverError }
  | .write sessionId =>
      match reply, b.act render (q.act now id) with
      | .raised, _ | .lost, none => some { pc := serverError }
      | .lost, some b' => some { effect := some (q.act now id, b'), pc := serverError }
      | .returned, none => some { pc := .done (.rejected q.missed) }
      | .returned, some b' =>
          some { effect := some (q.act now id, b')
                 pc := .audit (q.auditEntry sessionId (q.act now id)) (q.next render now id) }
  | .audit entry next =>
      match reply with
      | .raised => some { pc := serverError }
      | .lost => some { audit := some entry, pc := serverError }
      | .returned => some { audit := some entry, pc := next }
  | .reread =>
      if reply = .returned then some { pc := .done (q.reread b) } else some { pc := serverError }
  | .done _ => none

/-- The answer to a request that has acted. -/
def Request.answer (q : Request) (b : Board) (now : Time) (id : ℤ) : Response :=
  match q.next render now id with
  | .done r => r
  | _ => q.reread b

/-- A request that nothing comes in between: what it does, and the answer. -/
def Request.serve (q : Request) (b : Board) (now : Time) (id : ℤ) : Option Act × Response :=
  match q.permit with
  | .error r => (none, .rejected r)
  | .ok _ =>
      match q.check b with
      | .error r => (none, .rejected r)
      | .ok _ =>
          match b.act render (q.act now id) with
          | none => (none, .rejected q.missed)
          | some b' => (some (q.act now id), q.answer render b' now id)

end Serve

/-! ### All requests together -/

/-- A request; how many actions there had been when it came, and when it was answered. -/
structure Entry where
  request : Request
  begins : ℕ
  ends : Option ℕ
  pc : Pc

/-- The tables, the audit log, the requests, and the actions so far, with the request that each is
of. -/
structure State where
  board : Board := {}
  audit : List AuditEntry := []
  requests : List Entry := []
  log : List (Option ℕ × Act) := []

/-- What happens next. -/
inductive Label where
  | addSession (sessionId : String)
  | arrive (q : Request)
  /-- the call that a request waits for; `now` is the clock, `id` is what the database gives -/
  | resume (i : ℕ) (reply : Reply) (now : Time) (id : ℤ)

/-- The request has its answer. -/
def Pc.isDone : Pc → Bool
  | .done _ => true
  | _ => false

namespace State

variable (render : String → String) (s : State)

/-- A request that comes. -/
def arrive (q : Request) : State :=
  { s with
    requests := s.requests ++ [
      match q.permit with
      | .error r => ⟨q, s.log.length, some s.log.length, .done (.rejected r)⟩
      | .ok _ => ⟨q, s.log.length, none, .check⟩] }

/-- What has become of a request. -/
def settle (i : ℕ) (e : Entry) (o : Outcome) : State :=
  let log := s.log ++ (o.effect.map fun x => (some i, x.1)).toList
  { board := o.effect.elim s.board Prod.snd
    audit := s.audit ++ o.audit.toList
    requests :=
      s.requests.set i { e with ends := if o.pc.isDone then some log.length else none, pc := o.pc }
    log := log }

/-- One step. -/
def step : Label → Option State
  | .addSession sessionId =>
      (s.board.act render (.addSession sessionId)).map fun board =>
        { s with board, log := s.log ++ [(none, .addSession sessionId)] }
  | .arrive q => some (s.arrive q)
  | .resume i reply now id =>
      s.requests[i]?.bind fun e =>
        (resume render s.board e.request reply now id e.pc).map (s.settle i e)

end State

/-- The routes and their clients. -/
def system (render : String → String) : System State Label where
  init := fun s => s = {}
  step := State.step render

/-! ### One request at a time -/

section Serve

variable {render : String → String} {q : Request} {b b' : Board} {now : Time} {id : ℤ}
  {r : Rejection} {sessionId : String}

/-- The check of a route is the check of its action. -/
lemma check_eq_ok : (∃ sessionId, q.check b = .ok sessionId) ↔ b.Allowed (q.act now id) := by
  obtain ⟨caller, op⟩ := q
  cases op with
  | create sessionId body =>
      by_cases h : sessionId ∈ b.sessions <;> simp [Request.check, Request.act, Board.Allowed, h]
  | update id' body =>
      simp only [Request.check, Request.act, Board.Allowed]
      cases hget : b.comments.get? id' with
      | none => simp
      | some c =>
          by_cases hlive : c.deletedAt = none
          · by_cases hauthor : c.author = caller.label <;> simp [Option.filter, hlive, hauthor]
          · simp [Option.filter, hlive]
  | delete id' =>
      simp only [Request.check, Request.act, Board.Allowed]
      cases hget : b.comments.get? id' with
      | none => simp
      | some c =>
          by_cases hlive : c.deletedAt = none
          · by_cases hallowed : c.author = caller.label ∨ caller.isAdmin <;>
              simp [Option.filter, hlive, hallowed]
          · simp [Option.filter, hlive]

lemma serve_of_rejected (h : q.permit = .error r) :
    q.serve render b now id = (none, .rejected r) := by
  rw [Request.serve, h]

lemma serve_of_refused (hpermit : q.permit = .ok ()) (h : q.check b = .error r) :
    q.serve render b now id = (none, .rejected r) := by
  rw [Request.serve, hpermit]
  simp only [h]

lemma serve_of_allowed (hpermit : q.permit = .ok ()) (h : b.Allowed (q.act now id))
    (hact : b.act render (q.act now id) = some b') :
    q.serve render b now id = (some (q.act now id), q.answer render b' now id) := by
  obtain ⟨sessionId, hcheck⟩ := check_eq_ok.mpr h
  rw [Request.serve, hpermit]
  simp only [hcheck, hact]

/-- A request that is due and touches no row has come too late, or was given an id that is taken. -/
lemma serve_of_missed (hpermit : q.permit = .ok ()) (hdue : (board render).Due b (q.act now id))
    (hact : b.act render (q.act now id) = none) :
    q.missed = .serverError ∨ (q.missed = .commentNotFound ∨ q.missed = .commentUpdateFailed) ∧
      q.serve render b now id = (none, .rejected .commentNotFound) := by
  obtain ⟨caller, op⟩ := q
  have hlate : ∀ id', (∃ c, b.comments.get? id' = some c ∧ c.deletedAt ≠ none) →
      (b.comments.get? id').filter (·.deletedAt.isNone) = none := by
    rintro id' ⟨c, hget, hdeleted⟩
    rw [hget]
    exact Option.filter_some_neg (by simpa [Option.ne_none_iff_isSome] using hdeleted)
  cases op with
  | create sessionId body => exact Or.inl rfl
  | update id' body =>
      refine Or.inr ⟨Or.inr rfl, serve_of_refused hpermit ?_⟩
      rcases hdue with ⟨c, hget, hlive, -⟩ | hclosed
      · have hany := any_isLive.mpr ⟨c, hget, hlive⟩
        simp [Request.act, Board.act, hany] at hact
      · simp only [Request.check, hlate id' hclosed]
  | delete id' =>
      refine Or.inr ⟨Or.inl rfl, serve_of_refused hpermit ?_⟩
      rcases hdue with ⟨c, hget, hlive, -⟩ | hclosed
      · have hany := any_isLive.mpr ⟨c, hget, hlive⟩
        simp [Request.act, Board.act, hany] at hact
      · simp only [Request.check, hlate id' hclosed]

lemma next_cases : q.next render now id = .done (q.answer render b now id) ∨
    q.next render now id = .reread ∧ ∃ id body, q.op = .update id body := by
  obtain ⟨caller, op⟩ := q
  cases op with
  | create sessionId body => exact Or.inl rfl
  | update id' body => exact Or.inr ⟨rfl, id', body, rfl⟩
  | delete id' => exact Or.inl rfl

end Serve

/-! ### All requests one after the other -/

section Linear

variable (render : String → String) (log : List (Option ℕ × Act)) (i : ℕ) (q : Request)
  (begins : ℕ)

/-- The request has acted at a moment when it would have done the same, and been given this answer,
if nothing came in between. -/
def Acted (ends : ℕ) (r : Response) : Prop :=
  ∃ n b now id, (board render).Effect {} log i n (q.act now id) b ∧ begins ≤ n ∧ n < ends ∧
    q.serve render b now id = (some (q.act now id), r)

/-- At a moment the request would have been refused, if nothing came in between. -/
def Refused (ends : ℕ) (r : Rejection) : Prop :=
  CheckThenAct.Idle log i ∧ ∃ n b now id, (board render).StateAt {} log n b ∧ begins ≤ n ∧
    n ≤ ends ∧ q.serve render b now id = (none, .rejected r)

/-- The moment between its arrival and its answer at which a request might as well be served. -/
inductive Linearized (ends : ℕ) : Response → Prop
  | acted {r : Response} : Acted render log i q begins ends r → Linearized ends r
  | refused {r : Rejection} : Refused render log i q begins ends r → Linearized ends (.rejected r)
  /-- 409 is for a comment that was deleted in the meantime -/
  | late : Refused render log i q begins ends .commentNotFound →
      Linearized ends (.rejected .commentUpdateFailed)
  /-- the answer to an edit is the comment as it is at a later moment -/
  | edited {id : ℤ} {body : String} {n : ℕ} {r : Response} {b : Board} {c : Comment} :
      q.op = .update id body → Acted render log i q begins n r →
      (board render).StateAt {} log n b → n ≤ ends → b.comments.get? id = some c →
      Linearized ends (.comment c.serialize)
  /-- with a 500, it has done nothing, or all of it -/
  | failed : CheckThenAct.Idle log i ∨ (∃ r, Acted render log i q begins ends r) →
      Linearized ends (.rejected .serverError)

variable {render log i q begins} {x : Option ℕ × Act} {ends ends' : ℕ} {r : Response}

lemma Acted.append (h : Acted render log i q begins ends r) (hx : x.1 ≠ some i) :
    Acted render (log ++ [x]) i q begins ends r := by
  obtain ⟨n, b, now, id, heffect, hn⟩ := h
  exact ⟨n, b, now, id, heffect.append hx, hn⟩

lemma Acted.mono (h : Acted render log i q begins ends r) (hle : ends ≤ ends') :
    Acted render log i q begins ends' r := by
  obtain ⟨n, b, now, id, heffect, hbegins, hends, hserve⟩ := h
  exact ⟨n, b, now, id, heffect, hbegins, hends.trans_le hle, hserve⟩

lemma Refused.append {r : Rejection} (h : Refused render log i q begins ends r)
    (hx : x.1 ≠ some i) : Refused render (log ++ [x]) i q begins ends r := by
  obtain ⟨hidle, n, b, now, id, hat, hn⟩ := h
  exact ⟨hidle.append hx, n, b, now, id, hat.append, hn⟩

lemma Linearized.append (h : Linearized render log i q begins ends r) (hx : x.1 ≠ some i) :
    Linearized render (log ++ [x]) i q begins ends r := by
  cases h with
  | acted h => exact .acted (h.append hx)
  | refused h => exact .refused (h.append hx)
  | late h => exact .late (h.append hx)
  | edited hop h hat hn hget => exact .edited hop (h.append hx) hat.append hn hget
  | failed h =>
      refine .failed (h.imp (fun hidle => hidle.append hx) ?_)
      rintro ⟨r, h⟩
      exact ⟨r, h.append hx⟩

end Linear

/-! ### Where each request is -/

/-- What is known of a request, by where it is suspended. -/
def Entry.Sound (render : String → String) (s : State) (i : ℕ) (e : Entry) : Prop :=
  e.begins ≤ s.log.length ∧
    match e.pc with
    | .check => CheckThenAct.Idle s.log i ∧ e.request.permit = .ok ()
    | .write _ => CheckThenAct.Idle s.log i ∧ e.request.permit = .ok () ∧
        ∀ now id, (board render).Due s.board (e.request.act now id)
    | .audit _ next => ∃ r, Acted render s.log i e.request e.begins s.log.length r ∧
        (next = .done r ∨ next = .reread ∧ ∃ id body, e.request.op = .update id body)
    | .reread => (∃ r, Acted render s.log i e.request e.begins s.log.length r) ∧
        ∃ id body, e.request.op = .update id body
    | .done r => ∃ ends, e.ends = some ends ∧ ends ≤ s.log.length ∧
        Linearized render s.log i e.request e.begins ends r

/-- The actions of the log are those of requests that were admitted. -/
def State.Origin (s : State) (x : Option ℕ × Act) : Prop :=
  match x with
  | (none, a) => ∃ sessionId, a = .addSession sessionId
  | (some i, a) => ∃ e, s.requests[i]? = some e ∧ e.request.permit = .ok () ∧
      ∃ now id, a = e.request.act now id

/-- The invariant. -/
structure Inv (render : String → String) (s : State) : Prop where
  performs : (board render).Performs {} (s.log.map Prod.snd) s.board
  sound : ∀ i (e : Entry), s.requests[i]? = some e → e.Sound render s i
  origin : ∀ x ∈ s.log, s.Origin x

section Inv

variable {render : String → String} {s s' : State} {i j : ℕ} {e : Entry} {o : Outcome}
  {a : Act} {b : Board}

/-- What one request does, the others survive. -/
lemma Sound.append (h : e.Sound render s i) {x : Option ℕ × Act} (hx : x.1 ≠ some i)
    (hact : s.board.act render x.2 = some b) (hlog : s'.log = s.log ++ [x])
    (hboard : s'.board = b) : e.Sound render s' i := by
  obtain ⟨hbegins, h⟩ := h
  have hlength : s.log.length ≤ s'.log.length := by
    rw [hlog, List.length_append]
    exact Nat.le_add_right _ _
  refine ⟨hbegins.trans hlength, ?_⟩
  cases hpc : e.pc with
  | check =>
      simp only [hpc] at h ⊢
      rw [hlog]
      exact ⟨h.1.append hx, h.2⟩
  | write sessionId =>
      simp only [hpc] at h ⊢
      rw [hlog, hboard]
      exact ⟨h.1.append hx, h.2.1, fun now id => (h.2.2 now id).act hact⟩
  | audit entry next =>
      simp only [hpc] at h ⊢
      obtain ⟨r, hacted, hnext⟩ := h
      refine ⟨r, ?_, hnext⟩
      rw [hlog] at hlength ⊢
      exact (hacted.append hx).mono hlength
  | reread =>
      simp only [hpc] at h ⊢
      obtain ⟨⟨r, hacted⟩, hop⟩ := h
      refine ⟨⟨r, ?_⟩, hop⟩
      rw [hlog] at hlength ⊢
      exact (hacted.append hx).mono hlength
  | done r =>
      simp only [hpc] at h ⊢
      obtain ⟨ends, hends, hle, hlin⟩ := h
      refine ⟨ends, hends, hle.trans hlength, ?_⟩
      rw [hlog]
      exact hlin.append hx

/-- What is known of a request is about the tables and the log. -/
lemma Sound.congr (h : e.Sound render s i) (hlog : s'.log = s.log) (hboard : s'.board = s.board) :
    e.Sound render s' i := by
  rw [Entry.Sound, hlog, hboard]
  exact h

lemma Origin.mono {x : Option ℕ × Act} (h : s.Origin x)
    (hrequests : ∀ (i : ℕ) (e : Entry), s.requests[i]? = some e →
      ∃ e' : Entry, s'.requests[i]? = some e' ∧ e'.request = e.request) : s'.Origin x := by
  obtain ⟨j, a⟩ := x
  cases j with
  | none => exact h
  | some j =>
      obtain ⟨e, he, hpermit, hact⟩ := h
      obtain ⟨e', he', heq⟩ := hrequests j e he
      exact ⟨e', he', heq ▸ hpermit, heq ▸ hact⟩

/-- A call changes the tables where a request writes, and as the request says. -/
lemma effect_resume {q : Request} {reply : Reply} {now : Time} {id : ℤ} {pc : Pc}
    (h : resume render b q reply now id pc = some o) :
    o.effect = none ∨ ∃ b' sessionId, o.effect = some (q.act now id, b') ∧
      b.act render (q.act now id) = some b' ∧ pc = .write sessionId := by
  cases pc with
  | check =>
      rw [resume] at h
      split_ifs at h
      · cases hcheck : q.check b <;> rw [hcheck] at h <;> obtain rfl := Option.some.inj h <;>
          exact Or.inl rfl
      · obtain rfl := Option.some.inj h
        exact Or.inl rfl
  | write sessionId =>
      cases hact : b.act render (q.act now id) with
      | none =>
          cases reply <;> simp only [resume, hact] at h <;> obtain rfl := Option.some.inj h <;>
            exact Or.inl rfl
      | some b' =>
          cases reply <;> simp only [resume, hact] at h <;> obtain rfl := Option.some.inj h
          · exact Or.inr ⟨b', sessionId, rfl, rfl, rfl⟩
          · exact Or.inr ⟨b', sessionId, rfl, rfl, rfl⟩
          · exact Or.inl rfl
  | audit entry next =>
      cases reply <;> rw [resume] at h <;> obtain rfl := Option.some.inj h <;> exact Or.inl rfl
  | reread =>
      rw [resume] at h
      split_ifs at h <;> obtain rfl := Option.some.inj h <;> exact Or.inl rfl
  | done r => simp [resume] at h

/-- A request that is answered now. -/
lemma Sound.done {r : Response} (hbegins : e.begins ≤ s.log.length) (hpc : e.pc = .done r)
    (hends : e.ends = some s.log.length)
    (h : Linearized render s.log i e.request e.begins s.log.length r) : e.Sound render s i := by
  refine ⟨hbegins, ?_⟩
  rw [hpc]
  exact ⟨_, hends, le_rfl, h⟩

/-- **What a request knows of itself survives its own steps.** -/
lemma sound_resume (hinv : Inv render s) (h : e.Sound render s i) {reply : Reply} {now : Time}
    {id : ℤ} (ho : resume render s.board e.request reply now id e.pc = some o) :
    Entry.Sound render (s.settle i e o) i
      { e with
        ends := if o.pc.isDone then some (s.settle i e o).log.length else none
        pc := o.pc } := by
  obtain ⟨hbegins, h⟩ := h
  have hnow := CheckThenAct.StateAt.now hinv.performs
  -- without an effect, the log stays as it is
  have hsame : o.effect = none → (s.settle i e o).log = s.log := by
    intro heffect
    simp [State.settle, heffect]
  cases hpc : e.pc with
  | check =>
      simp only [hpc] at h
      obtain ⟨hidle, hpermit⟩ := h
      rw [hpc, resume] at ho
      split_ifs at ho
      · cases hcheck : e.request.check s.board with
        | error r =>
            simp only [hcheck] at ho
            obtain rfl := Option.some.inj ho
            refine Sound.done ?_ rfl rfl ?_ <;> rw [hsame rfl]
            · exact hbegins
            · exact .refused ⟨hidle, _, _, 0, 0, hnow, hbegins, le_rfl,
                serve_of_refused hpermit hcheck⟩
        | ok sessionId =>
            simp only [hcheck] at ho
            obtain rfl := Option.some.inj ho
            refine ⟨(hsame rfl).symm ▸ hbegins, ?_⟩
            simp only [hsame rfl]
            exact ⟨hidle, hpermit, fun now id => Or.inl (check_eq_ok.mp ⟨sessionId, hcheck⟩)⟩
      · obtain rfl := Option.some.inj ho
        refine Sound.done ?_ rfl rfl ?_ <;> rw [hsame rfl]
        · exact hbegins
        · exact .failed (Or.inl hidle)
  | write sessionId =>
      simp only [hpc] at h
      obtain ⟨hidle, hpermit, hdue⟩ := h
      rw [hpc] at ho
      cases hact : s.board.act render (e.request.act now id) with
      | none =>
          cases reply with
          | returned =>
              simp only [resume, hact] at ho
              obtain rfl := Option.some.inj ho
              refine Sound.done ?_ rfl rfl ?_ <;> rw [hsame rfl]
              · exact hbegins
              rcases serve_of_missed hpermit (hdue now id) hact with hmissed | ⟨hmissed, hserve⟩
              · rw [hmissed]
                exact .failed (Or.inl hidle)
              · have hrefused : Refused render s.log i e.request e.begins s.log.length
                    .commentNotFound := ⟨hidle, _, _, now, id, hnow, hbegins, le_rfl, hserve⟩
                rcases hmissed with hmissed | hmissed <;> rw [hmissed]
                · exact .refused hrefused
                · exact .late hrefused
          | lost | raised =>
              simp only [resume, hact] at ho
              obtain rfl := Option.some.inj ho
              refine Sound.done ?_ rfl rfl ?_ <;> rw [hsame rfl]
              · exact hbegins
              · exact .failed (Or.inl hidle)
      | some b' =>
          have hallowed : s.board.Allowed (e.request.act now id) := (hdue now id).allowed hact
          have hacted : Acted render (s.log ++ [(some i, e.request.act now id)]) i e.request
              e.begins (s.log.length + 1) (e.request.answer render b' now id) :=
            ⟨_, _, now, id, .last hinv.performs hidle, hbegins, Nat.lt_succ_self _,
              serve_of_allowed hpermit hallowed hact⟩
          cases reply with
          | returned =>
              simp only [resume, hact] at ho
              obtain rfl := Option.some.inj ho
              refine ⟨?_, ?_⟩
              · simpa [State.settle] using hbegins.trans (Nat.le_succ _)
              · refine ⟨e.request.answer render b' now id, ?_, next_cases⟩
                simpa [State.settle] using hacted
          | lost =>
              simp only [resume, hact] at ho
              obtain rfl := Option.some.inj ho
              refine Sound.done ?_ rfl rfl ?_
              · simpa [State.settle] using hbegins.trans (Nat.le_succ _)
              · refine .failed (Or.inr ⟨e.request.answer render b' now id, ?_⟩)
                simpa [State.settle] using hacted
          | raised =>
              simp only [resume] at ho
              obtain rfl := Option.some.inj ho
              refine Sound.done ?_ rfl rfl ?_ <;> rw [hsame rfl]
              · exact hbegins
              · exact .failed (Or.inl hidle)
  | audit entry next =>
      simp only [hpc] at h
      obtain ⟨r, hacted, hnext⟩ := h
      rw [hpc] at ho
      cases reply with
      | returned =>
          rw [resume] at ho
          obtain rfl := Option.some.inj ho
          rcases hnext with rfl | ⟨rfl, hop⟩
          · refine Sound.done ?_ rfl rfl ?_ <;> rw [hsame rfl]
            · exact hbegins
            · exact .acted hacted
          · refine ⟨(hsame rfl).symm ▸ hbegins, ?_⟩
            simp only [hsame rfl]
            exact ⟨⟨r, hacted⟩, hop⟩
      | lost | raised =>
          rw [resume] at ho
          obtain rfl := Option.some.inj ho
          refine Sound.done ?_ rfl rfl ?_ <;> rw [hsame rfl]
          · exact hbegins
          · exact .failed (Or.inr ⟨r, hacted⟩)
  | reread =>
      simp only [hpc] at h
      obtain ⟨⟨r, hacted⟩, id', body, hop⟩ := h
      rw [hpc, resume] at ho
      split_ifs at ho <;> obtain rfl := Option.some.inj ho
      · refine Sound.done ?_ rfl rfl ?_ <;> rw [hsame rfl]
        · exact hbegins
        · rw [Request.reread, hop]
          dsimp only
          cases hget : s.board.comments.get? id' with
          | none => exact .failed (Or.inr ⟨r, hacted⟩)
          | some c => exact .edited hop hacted hnow le_rfl hget
      · refine Sound.done ?_ rfl rfl ?_ <;> rw [hsame rfl]
        · exact hbegins
        · exact .failed (Or.inr ⟨r, hacted⟩)
  | done r =>
      rw [hpc] at ho
      simp [resume] at ho

/-! ### Runs -/

lemma inv_init : Inv render {} where
  performs := .nil
  sound := by simp
  origin := by simp

lemma inv_addSession (h : Inv render s) {sessionId : String}
    (hs : s.step render (.addSession sessionId) = some s') : Inv render s' := by
  rw [State.step] at hs
  obtain ⟨b, hact, rfl⟩ := Option.map_eq_some_iff.mp hs
  constructor
  · rw [List.map_append]
    exact h.performs.snoc trivial hact
  · intro j e he
    exact Sound.append (h.sound j e he) (by simp) hact rfl rfl
  · intro x hx
    rcases List.mem_append.mp hx with hx | hx
    · exact Origin.mono (h.origin x hx) fun j e he => ⟨e, he, rfl⟩
    · obtain rfl := List.mem_singleton.mp hx
      exact ⟨sessionId, rfl⟩

/-- Nobody has acted for a request that has not come. -/
lemma idle_length (h : Inv render s) : CheckThenAct.Idle s.log s.requests.length := by
  intro a ha
  obtain ⟨e, he, -⟩ := h.origin _ ha
  simp at he

lemma inv_arrive (h : Inv render s) {q : Request} : Inv render (s.arrive q) := by
  constructor
  · exact h.performs
  · intro j e he
    rcases lt_or_ge j s.requests.length with hj | hj
    · rw [State.arrive, List.getElem?_append_left hj] at he
      exact Sound.congr (h.sound j e he) rfl rfl
    · rw [State.arrive, List.getElem?_append_right hj, List.getElem?_singleton] at he
      split_ifs at he with hzero
      obtain rfl : j = s.requests.length := by omega
      cases hpermit : q.permit with
      | error r =>
          rw [hpermit] at he
          obtain rfl := Option.some.inj he
          exact Sound.done le_rfl rfl rfl (.refused ⟨idle_length h, _, _, 0, 0,
            CheckThenAct.StateAt.now h.performs, le_rfl, le_rfl, serve_of_rejected hpermit⟩)
      | ok u =>
          rw [hpermit] at he
          obtain rfl := Option.some.inj he
          exact ⟨le_rfl, idle_length h, hpermit⟩
  · intro x hx
    refine Origin.mono (h.origin x hx) fun j e he => ⟨e, ?_, rfl⟩
    rw [State.arrive, List.getElem?_append_left (List.getElem?_eq_some_iff.mp he).1, he]

lemma inv_settle (h : Inv render s) {reply : Reply} {now : Time} {id : ℤ}
    (he : s.requests[i]? = some e)
    (ho : resume render s.board e.request reply now id e.pc = some o) :
    Inv render (s.settle i e o) := by
  have hi : i < s.requests.length := (List.getElem?_eq_some_iff.mp he).1
  have hsound := sound_resume h (h.sound i e he) ho
  have hrequests : ∀ (j : ℕ) (e' : Entry), s.requests[j]? = some e' →
      ∃ e'' : Entry, (s.settle i e o).requests[j]? = some e'' ∧ e''.request = e'.request := by
    intro j e' he'
    by_cases hij : i = j
    · subst hij
      obtain rfl := Option.some.inj (he.symm.trans he')
      exact ⟨_, List.getElem?_set_self hi, rfl⟩
    · exact ⟨e', (List.getElem?_set_ne hij).trans he', rfl⟩
  -- the other requests
  have hothers : (∀ j e', j ≠ i → s.requests[j]? = some e' →
      Entry.Sound render (s.settle i e o) j e') →
      ∀ (j : ℕ) (e' : Entry), (s.settle i e o).requests[j]? = some e' →
        e'.Sound render (s.settle i e o) j := by
    intro hne j e' he'
    by_cases hij : i = j
    · subst hij
      obtain rfl := Option.some.inj ((List.getElem?_set_self hi).symm.trans he')
      exact hsound
    · exact hne j e' (Ne.symm hij) ((List.getElem?_set_ne hij).symm.trans he')
  rcases effect_resume ho with heffect | ⟨b', sessionId, heffect, hact, hpc⟩
  · have hlog : (s.settle i e o).log = s.log := by simp [State.settle, heffect]
    have hboard : (s.settle i e o).board = s.board := by simp [State.settle, heffect]
    constructor
    · rw [hlog, hboard]
      exact h.performs
    · exact hothers fun j e' _ he' => Sound.congr (h.sound j e' he') hlog hboard
    · intro x hx
      rw [hlog] at hx
      exact Origin.mono (h.origin x hx) hrequests
  · have hlog : (s.settle i e o).log = s.log ++ [(some i, e.request.act now id)] := by
      simp [State.settle, heffect]
    have hboard : (s.settle i e o).board = b' := by simp [State.settle, heffect]
    obtain ⟨-, hwrite⟩ := h.sound i e he
    rw [hpc] at hwrite
    obtain ⟨-, hpermit, hdue⟩ := hwrite
    constructor
    · rw [hlog, hboard, List.map_append]
      exact h.performs.act (hdue now id) hact
    · exact hothers fun j e' hji he' => Sound.append (h.sound j e' he')
        (fun heq => hji (Option.some.inj heq).symm) hact hlog hboard
    · intro x hx
      rw [hlog] at hx
      rcases List.mem_append.mp hx with hx | hx
      · exact Origin.mono (h.origin x hx) hrequests
      · obtain rfl := List.mem_singleton.mp hx
        obtain ⟨e', he', heq⟩ := hrequests i e he
        exact ⟨e', he', heq ▸ hpermit, now, id, by rw [heq]⟩

lemma inv_reachable (h : (system render).Reachable s) : Inv render s := by
  refine h.invariant (I := Inv render) ?_ ?_
  · rintro s rfl
    exact inv_init
  · intro s l s' hinv _ hs
    cases l with
    | addSession sessionId => exact inv_addSession hinv hs
    | arrive q =>
        obtain rfl := Option.some.inj hs
        exact inv_arrive hinv
    | resume i reply now id =>
        obtain ⟨e, he, hs⟩ := Option.bind_eq_some_iff.mp hs
        obtain ⟨o, ho, rfl⟩ := Option.map_eq_some_iff.mp hs
        exact inv_settle hinv he ho

end Inv

/-- **The requests might as well be served one at a time**: the actions in the log are checked as
they are made, and each answer is the one of a moment between the arrival of the request and the
answer, as `Linearized` says. -/
theorem linearizable {render : String → String} {s : State} (h : (system render).Reachable s) :
    (board render).Performs {} (s.log.map Prod.snd) s.board ∧
      ∀ (i : ℕ) (e : Entry) (r : Response), s.requests[i]? = some e → e.pc = .done r →
        ∃ ends ≤ s.log.length, e.ends = some ends ∧
          Linearized render s.log i e.request e.begins ends r := by
  have hinv := inv_reachable h
  refine ⟨hinv.performs, fun i e r he hpc => ?_⟩
  obtain ⟨-, hsound⟩ := hinv.sound i e he
  rw [hpc] at hsound
  obtain ⟨ends, hends, hle, hlin⟩ := hsound
  exact ⟨ends, hle, hends, hlin⟩

section Run

/-- An administrator. -/
def carol : Caller := ⟨some "carol", some "admin", "db", ∅⟩

/-- A submitter. -/
def alice : Caller := ⟨some "alice", some "submitter", "db", ∅⟩

/-- Carol deletes what Alice is about to edit. -/
def race : List Label :=
  [.addSession "s1", .arrive ⟨alice, .create "s1" "draft"⟩, .resume 0 .returned 1 0,
    .resume 0 .returned 1 7, .resume 0 .returned 1 0, .arrive ⟨alice, .update 7 "final"⟩,
    .arrive ⟨carol, .delete 7⟩, .resume 1 .returned 2 0, .resume 2 .returned 2 0,
    .resume 2 .returned 3 0, .resume 1 .returned 4 0, .resume 2 .lost 5 0]

/-- Where that leads. -/
def raced : State := ((system id).run {} race).getD {}

lemma reachable_raced : (system id).Reachable raced :=
  .of_run (.init rfl) (rfl : (system id).run {} race = some raced)

/-- Alice's edit is late, and the deletion succeeds although its answer is a 500. -/
theorem late_edit :
    (board id).Performs {} (raced.log.map Prod.snd) raced.board ∧
      ∃ ends ≤ raced.log.length,
        Linearized id raced.log 1 ⟨alice, .update 7 "final"⟩ 2 ends
          (.rejected .commentUpdateFailed) := by
  obtain ⟨hperforms, hanswers⟩ := linearizable reachable_raced
  obtain ⟨ends, hle, -, hlin⟩ := hanswers 1 _ _ rfl rfl
  exact ⟨hperforms, ends, hle, hlin⟩

end Run

/-! ### Who did what to a comment -/

/-- Whoever may do this to a comment by `author`. -/
def Request.Entitled (q : Request) (author : String) : Prop :=
  match q.op with
  | .create _ body =>
      (∃ role, requireRole "submitter" q.caller = .ok role) ∧ q.caller.label = author ∧
        validBody body
  | .update _ body => q.caller.label = author ∧ validBody body
  | .delete _ => q.caller.label = author ∨ q.caller.isAdmin

section Life

variable {render : String → String} {s : State} {c : Comment} {l : Life} {a : Act} {q : Request}

lemma mem_acts : a ∈ l.acts c ↔ a = .create c.author c.sessionId l.body c.createdAt c.id ∨
    (∃ e ∈ l.edits, a = .update c.author c.id e.1 e.2) ∨
      ∃ d ∈ l.deletion, a = .delete d.1 d.2.1 c.id d.2.2 := by
  simp [Life.acts, eq_comm]

/-- A request that was admitted, and did what belongs to the life of a comment. -/
lemma entitled_of_acts (hdeleter : ∀ d ∈ l.deletion, c.author = d.1 ∨ d.2.1)
    (hpermit : q.permit = .ok ()) {now : Time} {id : ℤ} (ha : q.act now id ∈ l.acts c) :
    q.Entitled c.author := by
  obtain ⟨caller, op⟩ := q
  cases op with
  | create sessionId body =>
      rw [Request.permit] at hpermit
      dsimp only at hpermit
      cases hrole : requireRole "submitter" caller with
      | error detail => simp [hrole] at hpermit
      | ok role =>
          rw [hrole] at hpermit
          dsimp only at hpermit
          split_ifs at hpermit with hvalid
          rcases mem_acts.mp ha with heq | ⟨e, -, heq⟩ | ⟨d, -, heq⟩
          · injection heq with hlabel
            exact ⟨⟨role, hrole⟩, hlabel, hvalid⟩
          · cases heq
          · cases heq
  | update id' body =>
      rw [Request.permit] at hpermit
      dsimp only at hpermit
      split_ifs at hpermit with hvalid
      rcases mem_acts.mp ha with heq | ⟨e, -, heq⟩ | ⟨d, -, heq⟩
      · cases heq
      · injection heq with hlabel
        exact ⟨hlabel, hvalid⟩
      · cases heq
  | delete id' =>
      rcases mem_acts.mp ha with heq | ⟨e, -, heq⟩ | ⟨d, hd, heq⟩
      · cases heq
      · cases heq
      · injection heq with hactor hadmin
        rcases hdeleter d hd with hauthor | hallowed
        · exact Or.inl (hactor.trans hauthor.symm)
        · exact Or.inr (hadmin.trans hallowed)

lemma validBody_of_entitled {author body : String} {now : Time} {id : ℤ}
    (h : q.Entitled author) (hbody : (∃ actor sessionId t id',
      q.act now id = .create actor sessionId body t id') ∨
        ∃ actor id' t, q.act now id = .update actor id' body t) : validBody body := by
  obtain ⟨caller, op⟩ := q
  cases op with
  | create sessionId body' =>
      rcases hbody with ⟨_, _, _, _, heq⟩ | ⟨_, _, _, heq⟩
      · injection heq with _ _ hbody
        exact hbody ▸ h.2.2
      · cases heq
  | update id' body' =>
      rcases hbody with ⟨_, _, _, _, heq⟩ | ⟨_, _, _, heq⟩
      · cases heq
      · injection heq with _ _ hbody
        exact hbody ▸ h.2
  | delete id' =>
      rcases hbody with ⟨_, _, _, _, heq⟩ | ⟨_, _, _, heq⟩
      · cases heq
      · cases heq

/-- What is shown of a comment was written in one of its actions. -/
lemma body_mem_acts {acts : List Act} (h : Lived render acts c l) :
    (∃ actor sessionId t id, .create actor sessionId c.bodyMarkdown t id ∈ l.acts c) ∨
      ∃ actor id t, .update actor id c.bodyMarkdown t ∈ l.acts c := by
  have hbody := h.body
  cases hlast : l.edits.getLast? with
  | none =>
      rw [hlast, Option.getD_none, Prod.mk.injEq] at hbody
      exact Or.inl ⟨_, _, _, _, mem_acts.mpr (Or.inl (by rw [hbody.1]))⟩
  | some e =>
      rw [hlast, Option.getD_some] at hbody
      have hmem : .update c.author c.id c.bodyMarkdown c.updatedAt ∈ l.acts c :=
        mem_acts.mpr (Or.inr (Or.inl ⟨e, List.mem_of_getLast? hlast, by rw [← hbody]⟩))
      exact Or.inr ⟨_, _, _, hmem⟩

/-- **The life of a comment**: in the log it is created, then edited, and then deleted at most once,
each time by a request of somebody who may; what is shown of it is what was written last, sanitised,
and of valid length. -/
theorem comment_life (h : (system render).Reachable s) (hc : c ∈ s.board.comments.rows) :
    (∃ l, Lived render (about c.id (s.log.map Prod.snd)) c l) ∧
      (∀ x ∈ s.log, x.2.commentId = some c.id → ∃ i e, x.1 = some i ∧ s.requests[i]? = some e ∧
        e.request.Entitled c.author ∧ ∃ now id, x.2 = e.request.act now id) ∧
      validBody c.bodyMarkdown := by
  have hinv := inv_reachable h
  have hrecorded := recorded hinv.performs c.id
  rw [UniqueRows.get?_eq_some.mpr ⟨hc, rfl⟩] at hrecorded
  obtain ⟨l, hl⟩ := hrecorded
  have horigin : ∀ x ∈ s.log, x.2.commentId = some c.id → ∃ i e, x.1 = some i ∧
      s.requests[i]? = some e ∧ e.request.Entitled c.author ∧
        ∃ now id, x.2 = e.request.act now id := by
    rintro ⟨i, a⟩ hx hid
    have hmem : a ∈ l.acts c := by
      rw [← hl.acts_eq]
      exact List.mem_filter.mpr ⟨List.mem_map.mpr ⟨_, hx, rfl⟩, by simpa using hid⟩
    cases i with
    | none =>
        obtain ⟨sessionId, rfl⟩ := hinv.origin _ hx
        cases hid
    | some i =>
        obtain ⟨e, he, hpermit, now, id, rfl⟩ := hinv.origin _ hx
        exact ⟨i, e, rfl, he, entitled_of_acts hl.deleter hpermit hmem, now, id, rfl⟩
  refine ⟨⟨l, hl⟩, horigin, ?_⟩
  -- the body comes with a request
  have hrequest : ∀ a ∈ l.acts c, ∃ q : Request, q.Entitled c.author ∧
      ∃ now id, a = q.act now id := by
    intro a ha
    rw [← hl.acts_eq] at ha
    obtain ⟨ha, hid⟩ := List.mem_filter.mp ha
    obtain ⟨x, hx, rfl⟩ := List.mem_map.mp ha
    obtain ⟨-, e, -, -, hentitled, hact⟩ := horigin x hx (by simpa using hid)
    exact ⟨e.request, hentitled, hact⟩
  rcases body_mem_acts hl with ⟨_, _, _, _, hmem⟩ | ⟨_, _, _, hmem⟩
  · obtain ⟨q, hentitled, now, id, hact⟩ := hrequest _ hmem
    exact validBody_of_entitled hentitled (Or.inl ⟨_, _, _, _, hact.symm⟩)
  · obtain ⟨q, hentitled, now, id, hact⟩ := hrequest _ hmem
    exact validBody_of_entitled hentitled (Or.inr ⟨_, _, _, hact.symm⟩)

/-- Alice's comment, as Carol has deleted it. -/
def draft : Comment := ⟨7, "s1", "alice", "draft", "draft", 1, 1, some 3⟩

theorem life_of_draft :
    (∃ l, Lived id (about 7 (raced.log.map Prod.snd)) draft l) ∧
      (∀ x ∈ raced.log, x.2.commentId = some 7 → ∃ i e, x.1 = some i ∧
        raced.requests[i]? = some e ∧ e.request.Entitled "alice" ∧
          ∃ now id, x.2 = e.request.act now id) ∧
      validBody "draft" :=
  comment_life reachable_raced
    (List.mem_of_mem_getLast? (show raced.board.comments.rows.getLast? = some draft from rfl))

end Life

end Comments

end GgRelay
