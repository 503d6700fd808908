import GgRelay.Lib.CheckThenAct
import GgRelay.Lib.UniqueRows
import GgRelay.Store.SessionRow

/-!
Comments on sessions, as the store keeps them (`store/repository.py`).

* `Board` is what is in the tables, `Act` what changes it;
* `board` says which check goes before an action, and that it is still good when the action comes;
* `recorded`: where every action is checked, a comment is created, then edited by its author,
  and then deleted at most once, by its author or an administrator.
-/

namespace GgRelay

namespace Comments

/-! ### The store -/

/-- A row of `session_comments`. -/
structure Comment where
  id : ℤ
  sessionId : String
  author : String
  bodyMarkdown : String
  bodyHtml : String
  createdAt : Time
  updatedAt : Time
  deletedAt : Option Time
  deriving DecidableEq, Repr

/-- The tables; of a session, that it is there. No session and no comment is ever removed. -/
structure Board where
  sessions : List String := []
  comments : UniqueRows Comment.id := .empty

/-- What changes the tables; `actor` and `admin` are what was checked before. -/
inductive Act where
  /-- `create_session`, of a submission -/
  | addSession (sessionId : String)
  /-- `create_comment`, with the id that the database gives it -/
  | create (actor sessionId body : String) (now : Time) (id : ℤ)
  /-- `update_comment` -/
  | update (actor : String) (id : ℤ) (body : String) (now : Time)
  /-- `soft_delete_comment` -/
  | delete (actor : String) (admin : Bool) (id : ℤ) (now : Time)
  deriving DecidableEq, Repr

/-- The comment that an action is about. -/
def Act.commentId : Act → Option ℤ
  | .addSession _ => none
  | .create _ _ _ _ id | .update _ id _ _ | .delete _ _ id _ => some id

/-- `WHERE id = … AND deleted_at IS NULL`. -/
def isLive (id : ℤ) (c : Comment) : Bool := c.id = id && c.deletedAt.isNone

section Store

variable (render : String → String)

/-- The row that `create_comment` inserts; `render` is `render_safe`. -/
def newComment (actor sessionId body : String) (now : Time) (id : ℤ) : Comment where
  id := id
  sessionId := sessionId
  author := actor
  bodyMarkdown := body
  bodyHtml := render body
  createdAt := now
  updatedAt := now
  deletedAt := none

/-- The columns that `update_comment` sets. -/
def Comment.edit (body : String) (now : Time) (c : Comment) : Comment :=
  { c with bodyMarkdown := body, bodyHtml := render body, updatedAt := now }

/-- The column that `soft_delete_comment` sets. -/
def Comment.bury (now : Time) (c : Comment) : Comment := { c with deletedAt := some now }

@[simp] lemma id_newComment (actor sessionId body : String) (now : Time) (id : ℤ) :
    (newComment render actor sessionId body now id).id = id := rfl

lemma id_edit (body : String) (now : Time) (c : Comment) : (c.edit render body now).id = c.id := rfl

lemma id_bury (now : Time) (c : Comment) : (c.bury now).id = c.id := rfl

/-- An action on the tables; `none` where it touches no row, or the id is taken. -/
def Board.act (b : Board) : Act → Option Board
  | .addSession sessionId => some { b with sessions := b.sessions ++ [sessionId] }
  | .create actor sessionId body now id =>
      (b.comments.insert (newComment render actor sessionId body now id)).map fun comments =>
        { b with comments }
  | .update _ id body now =>
      if b.comments.rows.any (isLive id) then
        some { b with
          comments :=
            b.comments.update (isLive id) (Comment.edit render body now) (id_edit render body now) }
      else none
  | .delete _ _ id now =>
      if b.comments.rows.any (isLive id) then
        some { b with comments := b.comments.update (isLive id) (Comment.bury now) (id_bury now) }
      else none

/-- What an action makes of a comment that is there. -/
def Act.on (c : Comment) : Act → Comment
  | .addSession _ | .create _ _ _ _ _ => c
  | .update _ id body now => if id = c.id ∧ c.deletedAt = none then c.edit render body now else c
  | .delete _ _ id now => if id = c.id ∧ c.deletedAt = none then c.bury now else c

end Store

/-! ### Checks, and what becomes of them -/

/-- What a route checks before it acts. -/
def Board.Allowed (b : Board) : Act → Prop
  | .addSession _ => True
  | .create _ sessionId _ _ _ => sessionId ∈ b.sessions
  | .update actor id _ _ => ∃ c, b.comments.get? id = some c ∧ c.deletedAt = none ∧ c.author = actor
  | .delete actor admin id _ =>
      ∃ c, b.comments.get? id = some c ∧ c.deletedAt = none ∧ (c.author = actor ∨ admin)

/-- The comment is deleted. -/
def Board.Closed (b : Board) : Act → Prop
  | .addSession _ | .create _ _ _ _ _ => False
  | .update _ id _ _ | .delete _ _ id _ =>
      ∃ c, b.comments.get? id = some c ∧ c.deletedAt ≠ none

section Stable

variable {render : String → String} {b b' : Board} {a : Act} {id : ℤ} {c : Comment}

lemma any_isLive : b.comments.rows.any (isLive id) ↔
    ∃ c, b.comments.get? id = some c ∧ c.deletedAt = none := by
  rw [List.any_eq_true]
  constructor
  · rintro ⟨c, hc, hlive⟩
    obtain ⟨hid, hdeleted⟩ : c.id = id ∧ c.deletedAt = none := by simpa [isLive] using hlive
    exact ⟨c, UniqueRows.get?_eq_some.mpr ⟨hc, hid⟩, hdeleted⟩
  · rintro ⟨c, hget, hdeleted⟩
    obtain ⟨hc, hid⟩ := UniqueRows.get?_eq_some.mp hget
    exact ⟨c, hc, by simp [isLive, hid, hdeleted]⟩

/-- **What an action can do to a comment that is there.** -/
lemma get?_act (h : b.act render a = some b') (hc : b.comments.get? id = some c) :
    b'.comments.get? id = some (a.on render c) := by
  have hid := (UniqueRows.get?_eq_some.mp hc).2
  have hupdate : ∀ id' (f : Comment → Comment) (hf : ∀ c, (f c).id = c.id),
      (b.comments.update (isLive id') f hf).get? id
        = some (if id' = c.id ∧ c.deletedAt = none then f c else c) := by
    intro id' f hf
    rw [UniqueRows.get?_update, hc, Option.map_some]
    refine congrArg some (if_congr ?_ rfl rfl)
    rw [isLive, Bool.and_eq_true, decide_eq_true_eq, Option.isNone_iff_eq_none,
      eq_comm (a := c.id)]
  cases a with
  | addSession sessionId =>
      obtain rfl := Option.some.inj h
      exact hc
  | create actor sessionId body now id' =>
      obtain ⟨comments, hinsert, rfl⟩ := Option.map_eq_some_iff.mp h
      have hne : id ≠ id' := by
        rintro rfl
        rw [UniqueRows.insert] at hinsert
        split_ifs at hinsert with hmem
        exact hmem (List.mem_map.mpr ⟨c, (UniqueRows.get?_eq_some.mp hc).1, hid⟩)
      rw [UniqueRows.get?_insert hinsert]
      exact (if_neg hne).trans hc
  | update actor id' body now =>
      rw [Board.act] at h
      split_ifs at h
      obtain rfl := Option.some.inj h
      exact hupdate id' _ (id_edit render body now)
  | delete actor admin id' now =>
      rw [Board.act] at h
      split_ifs at h
      obtain rfl := Option.some.inj h
      exact hupdate id' _ (id_bury now)

/-- Sessions stay. -/
lemma sessions_act (h : b.act render a = some b') {sessionId : String}
    (hs : sessionId ∈ b.sessions) : sessionId ∈ b'.sessions := by
  cases a with
  | addSession sessionId' =>
      obtain rfl := Option.some.inj h
      exact List.mem_append_left _ hs
  | create actor sessionId' body now id' =>
      obtain ⟨comments, -, rfl⟩ := Option.map_eq_some_iff.mp h
      exact hs
  | update | delete =>
      rw [Board.act] at h
      split_ifs at h
      obtain rfl := Option.some.inj h
      exact hs

/-- A comment keeps its author, and is not restored. -/
lemma author_act (h : b.act render a = some b') (hc : b.comments.get? id = some c) :
    ∃ c', b'.comments.get? id = some c' ∧ c'.author = c.author ∧
      (c.deletedAt ≠ none → c'.deletedAt ≠ none) := by
  refine ⟨_, get?_act h hc, ?_⟩
  cases a with
  | addSession | create => exact ⟨rfl, fun h => h⟩
  | update =>
      rw [Act.on]
      split_ifs <;> exact ⟨rfl, fun h => h⟩
  | delete =>
      rw [Act.on]
      split_ifs
      · exact ⟨rfl, fun _ => Option.some_ne_none _⟩
      · exact ⟨rfl, fun h => h⟩

/-- A comment that a check has found live is live, or deleted. -/
lemma live_act {p : Comment → Prop} (hp : ∀ c c' : Comment, c'.author = c.author → p c → p c')
    (h : b.act render a = some b')
    (hc : ∃ c, b.comments.get? id = some c ∧ c.deletedAt = none ∧ p c) :
    (∃ c, b'.comments.get? id = some c ∧ c.deletedAt = none ∧ p c) ∨
      ∃ c, b'.comments.get? id = some c ∧ c.deletedAt ≠ none := by
  obtain ⟨c, hget, -, hpc⟩ := hc
  obtain ⟨c', hget', hauthor, -⟩ := author_act h hget
  by_cases hdeleted : c'.deletedAt = none
  · exact Or.inl ⟨c', hget', hdeleted, hp c c' hauthor hpc⟩
  · exact Or.inr ⟨c', hget', hdeleted⟩

end Stable

/-- The checks of the routes, and the actions behind them. -/
def board (render : String → String) : CheckThenAct Board Act where
  allowed := Board.Allowed
  act := Board.act render
  closed := Board.Closed
  act_of_closed := by
    intro b a h
    have hdead : ∀ id, (∃ c, b.comments.get? id = some c ∧ c.deletedAt ≠ none) →
        ¬b.comments.rows.any (isLive id) := by
      rintro id ⟨c, hget, hdeleted⟩ hany
      obtain ⟨c', hget', hlive⟩ := any_isLive.mp hany
      obtain rfl := Option.some.inj (hget.symm.trans hget')
      exact hdeleted hlive
    cases a with
    | addSession | create => exact h.elim
    | update | delete => exact if_neg (hdead _ h)
  stable := by
    intro b b' a a' hact h
    cases a with
    | addSession => exact Or.inl trivial
    | create => exact Or.inl (sessions_act hact h)
    | update => exact live_act (fun _ _ hauthor hc => hauthor.trans hc) hact h
    | delete => exact live_act (fun _ _ hauthor hc => hc.imp_left hauthor.trans) hact h
  closed_stable := by
    intro b b' a a' hact h
    cases a with
    | addSession | create => exact h
    | update | delete =>
        obtain ⟨c, hget, hdeleted⟩ := h
        obtain ⟨c', hget', -, hkeep⟩ := author_act hact hget
        exact ⟨c', hget', hkeep hdeleted⟩

/-! ### The life of a comment -/

/-- What happened to a comment: its first body, its edits, and who deleted it. -/
structure Life where
  body : String
  edits : List (String × Time)
  deletion : Option (String × Bool × Time)

/-- What happened, as actions. -/
def Life.acts (c : Comment) (l : Life) : List Act :=
  .create c.author c.sessionId l.body c.createdAt c.id ::
    (l.edits.map (fun e => .update c.author c.id e.1 e.2) ++
      l.deletion.toList.map fun d => .delete d.1 d.2.1 c.id d.2.2)

/-- The row is what these actions have left of it. -/
structure Lived (render : String → String) (acts : List Act) (c : Comment) (l : Life) :
    Prop where
  acts_eq : acts = l.acts c
  body : (c.bodyMarkdown, c.updatedAt) = l.edits.getLast?.getD (l.body, c.createdAt)
  html : c.bodyHtml = render c.bodyMarkdown
  deletedAt : c.deletedAt = l.deletion.map (·.2.2)
  deleter : ∀ d ∈ l.deletion, c.author = d.1 ∨ d.2.1

/-- The actions about a comment. -/
def about (id : ℤ) (acts : List Act) : List Act := acts.filter fun a => a.commentId = some id

/-- The actions about a comment are its life; there are none about a comment that is not there. -/
def Recorded (render : String → String) (acts : List Act) (b : Board) : Prop :=
  ∀ id, match b.comments.get? id with
    | none => about id acts = []
    | some c => ∃ l, Lived render (about id acts) c l

section Life

variable {render : String → String} {b b' : Board} {a : Act} {acts : List Act} {id : ℤ}
  {c : Comment} {l : Life}

lemma about_concat : about id (acts ++ [a])
    = about id acts ++ if a.commentId = some id then [a] else [] := by
  rw [about, List.filter_append, about, List.filter_singleton]
  simp

/-- An action about another comment. -/
lemma get?_act_of_ne (h : b.act render a = some b') (hne : a.commentId ≠ some id) :
    b'.comments.get? id = b.comments.get? id := by
  cases hget : b.comments.get? id with
  | some c =>
      rw [get?_act h hget]
      cases a with
      | addSession | create => rfl
      | update | delete =>
          refine congrArg some (if_neg fun hid => hne ?_)
          rw [Act.commentId, hid.1, (UniqueRows.get?_eq_some.mp hget).2]
  | none =>
      cases a with
      | addSession sessionId =>
          obtain rfl := Option.some.inj h
          exact hget
      | create actor sessionId body now id' =>
          obtain ⟨comments, hinsert, rfl⟩ := Option.map_eq_some_iff.mp h
          rw [UniqueRows.get?_insert hinsert]
          exact (if_neg fun hid => hne (congrArg some hid.symm)).trans hget
      | update actor id' body now =>
          rw [Board.act] at h
          split_ifs at h
          obtain rfl := Option.some.inj h
          exact (UniqueRows.get?_update (id_edit render body now) _).trans (by simp [hget])
      | delete actor admin id' now =>
          rw [Board.act] at h
          split_ifs at h
          obtain rfl := Option.some.inj h
          exact (UniqueRows.get?_update (id_bury now) _).trans (by simp [hget])

lemma Lived.create {actor sessionId body : String} {now : Time} :
    Lived render [.create actor sessionId body now id]
      (newComment render actor sessionId body now id) ⟨body, [], none⟩ where
  acts_eq := rfl
  body := rfl
  html := rfl
  deletedAt := rfl
  deleter := by simp

lemma Lived.edit (h : Lived render acts c l) (hlive : c.deletedAt = none) (body : String)
    (now : Time) :
    Lived render (acts ++ [.update c.author c.id body now]) (c.edit render body now)
      { l with edits := l.edits ++ [(body, now)] } := by
  have hnone : l.deletion = none := by simpa [hlive] using h.deletedAt
  constructor
  · rw [h.acts_eq]
    simp [Life.acts, hnone, Comment.edit]
  · simp [Comment.edit]
  · rfl
  · exact h.deletedAt
  · exact h.deleter

lemma Lived.bury (h : Lived render acts c l) (hlive : c.deletedAt = none) {actor : String}
    {admin : Bool} (hallowed : c.author = actor ∨ admin) (now : Time) :
    Lived render (acts ++ [.delete actor admin c.id now]) (c.bury now)
      { l with deletion := some (actor, admin, now) } := by
  have hnone : l.deletion = none := by simpa [hlive] using h.deletedAt
  constructor
  · rw [h.acts_eq]
    simp [Life.acts, hnone, Comment.bury]
  · exact h.body
  · exact h.html
  · rfl
  · rintro d hd
    obtain rfl := Option.some.inj hd
    exact hallowed

/-- **What an action does to the life of a comment.** -/
lemma recorded_act (h : Recorded render acts b) (hallowed : b.Allowed a)
    (hact : b.act render a = some b') : Recorded render (acts ++ [a]) b' := by
  intro id
  have hid := h id
  rw [about_concat]
  by_cases hne : a.commentId = some id
  swap
  · rwa [get?_act_of_ne hact hne, if_neg hne, List.append_nil]
  rw [if_pos hne]
  -- the action is about this comment
  cases a with
  | addSession sessionId => exact absurd hne (by simp [Act.commentId])
  | create actor sessionId body now id' =>
      obtain rfl := Option.some.inj hne
      obtain ⟨comments, hinsert, rfl⟩ := Option.map_eq_some_iff.mp hact
      have hfresh : b.comments.get? id' = none := by
        rw [UniqueRows.insert] at hinsert
        split_ifs at hinsert with hmem
        exact UniqueRows.get?_eq_none.mpr hmem
      rw [hfresh] at hid
      rw [hid, UniqueRows.get?_insert hinsert, id_newComment, if_pos rfl]
      exact ⟨_, .create⟩
  | update actor id' body now =>
      obtain rfl := Option.some.inj hne
      obtain ⟨c, hget, hlive, rfl⟩ := hallowed
      have hlived : ∃ l, Lived render (about id' acts) c l := by rwa [hget] at hid
      obtain ⟨l, hl⟩ := hlived
      obtain rfl := (UniqueRows.get?_eq_some.mp hget).2
      simp only [get?_act hact hget, Act.on, hlive, and_self, if_true]
      exact ⟨_, hl.edit hlive body now⟩
  | delete actor admin id' now =>
      obtain rfl := Option.some.inj hne
      obtain ⟨c, hget, hlive, hactor⟩ := hallowed
      have hlived : ∃ l, Lived render (about id' acts) c l := by rwa [hget] at hid
      obtain ⟨l, hl⟩ := hlived
      obtain rfl := (UniqueRows.get?_eq_some.mp hget).2
      simp only [get?_act hact hget, Act.on, hlive, and_self, if_true]
      exact ⟨_, hl.bury hlive hactor now⟩

/-- Where every action is checked as it is made, the tables have the lives of the comments. -/
lemma recorded (h : (board render).Performs {} acts b) : Recorded render acts b :=
  h.invariant (fun _ => rfl) fun _ _ _ _ hrec hallowed hact => recorded_act hrec hallowed hact

end Life

end Comments

end GgRelay
