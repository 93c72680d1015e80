import PageLogic.DevTools.Endpoint
import PageLogic.Proofs.DevTools.Exchanges
import PageLogic.Proofs.DevTools.Steps
import PageLogic.Proofs.Json.Compact
/-!
Servers. The other side of a connection receives commands and sends texts; what a command comes to is decided
by the client, who takes in the texts one by one. A text that is nested too deep is none of its messages: the
command for which it was meant goes on waiting until its time is up.
-/
namespace PageLogic.DevTools

variable {σ : Type}

/-- The other side of a connection: what it sends when it receives a command, from a state of its own. -/
structure Server (σ : Type) where
  react : Request → σ → List String × σ

/-- Sends one command, takes in what comes for it and waits until it has ended. -/
def Server.command (server : Server σ) (method : String) (params : Json) (s : Dispatch × σ) :
    Outcome × Dispatch × σ :=
  let id := s.1.nextId
  let (texts, state) := server.react ⟨id, method, params⟩ s.2
  let d := s.1.follow ([.begin method params, .enter id, .handOn id, .write] ++ texts.map .receive ++
    Endpoint.ending id)
  ((d.outcome? id).getD .timedOut, d, state)

theorem Server.command_eq {server : Server σ} {method : String} {params : Json} {d d' : Dispatch}
    {s s' : σ} {texts : List String} (hReact : server.react ⟨d.nextId, method, params⟩ s = (texts, s'))
    (hFollow : d.follow ([.begin method params, .enter d.nextId, .handOn d.nextId, .write] ++
      texts.map .receive ++ Endpoint.ending d.nextId) = d') :
    server.command method params (d, s) = ((d'.outcome? d.nextId).getD .timedOut, d', s') := by
  simp only [Server.command, hReact, hFollow]

/-- The server as a link, on which a command may take `secs` seconds. -/
def Server.link (server : Server σ) (secs : Nat) : Link (Dispatch × σ) :=
  .ofOutcomes secs server.command

/-! ### One command -/

namespace Dispatch

variable {d d' : Dispatch} {e : Event} {id : Nat} {method : String} {params : Json} {texts : List String}

theorem follow_append (d : Dispatch) (first second : List Event) :
    d.follow (first ++ second) = (d.follow first).follow second :=
  List.foldl_append

theorem Happens.follow_cons (h : d.Happens e d') (rest : List Event) :
    d.follow (e :: rest) = d'.follow rest := by
  rw [follow, List.foldl_cons, h.step_eq, Option.getD_some, follow]

theorem follow_cons_of_none (h : d.step e = none) (rest : List Event) :
    d.follow (e :: rest) = d.follow rest := by
  rw [follow, List.foldl_cons, h, Option.getD_none, follow]

/-- The client is connected and has nothing left to write. -/
structure IsIdle (d : Dispatch) : Prop where
  sound : d.Sound
  reading : d.reader = .reading
  writing : d.writing = true
  written : d.outbox = []

theorem isIdle_start : start.IsIdle :=
  ⟨sound_start, rfl, rfl, rfl⟩

namespace IsIdle

/-- A command that is sent by an idle client waits for its reply. -/
theorem send (h : d.IsIdle) (method : String) (params : Json) :
    ∃ d', d.follow [.begin method params, .enter d.nextId, .handOn d.nextId, .write] = d' ∧ d'.IsIdle ∧
      d'.nextId = d.nextId + 1 ∧ d'.call? d.nextId = some ⟨method, params, .waiting, .empty⟩ := by
  let numbered : Dispatch := { d with
    nextId := d.nextId + 1
    calls := (d.nextId, ⟨method, params, .numbered, .empty⟩) :: d.calls }
  let entered : Dispatch := { numbered.move d.nextId .entered with pending := d.nextId :: d.pending }
  let handed : Dispatch := { entered.move d.nextId .waiting with
    outbox := d.outbox ++ [⟨d.nextId, method, params⟩] }
  let written : Dispatch := { handed with outbox := [] }
  have hNumbered : numbered.call? d.nextId = some ⟨method, params, .numbered, .empty⟩ := by
    simp [numbered, call?]
  have hEntered : entered.call? d.nextId = some ⟨method, params, .entered, .empty⟩ :=
    call?_move_self hNumbered
  have hRoom : entered.outbox.length < capacity := by
    show d.outbox.length < capacity
    rw [h.written]
    decide
  have hBegin : d.Happens (.begin method params) numbered := .begin method params
  have hEnter : numbered.Happens (.enter d.nextId) entered := .enter hNumbered rfl
  have hHandOn : entered.Happens (.handOn d.nextId) handed := .handOn hEntered rfl h.writing hRoom
  have hWrite : handed.Happens .write written := .write (r := ⟨d.nextId, method, params⟩) (by
    show d.outbox ++ _ = _
    rw [h.written, List.nil_append])
  have hSound : written.Sound :=
    (((h.sound.step hBegin.step_eq).step hEnter.step_eq).step hHandOn.step_eq).step hWrite.step_eq
  refine ⟨written, ?_, ⟨hSound, h.reading, h.writing, rfl⟩, rfl, call?_move_self hEntered⟩
  rw [hBegin.follow_cons, hEnter.follow_cons, hHandOn.follow_cons, hWrite.follow_cons]
  rfl

theorem receive (h : d.IsIdle) (text : String) : (d.take text).IsIdle where
  sound := h.sound.take text
  reading := (reader_take text).trans h.reading
  writing := (writing_take text).trans h.writing
  written := (outbox_take text).trans h.written

theorem follow_receive (h : d.IsIdle) (text : String) (rest : List Event) :
    d.follow (.receive text :: rest) = (d.take text).follow rest :=
  (Happens.receive text h.reading).follow_cons rest

end IsIdle

/-- None of the texts is a message with that number. -/
def Silent (id : Nat) (texts : List String) : Prop :=
  ∀ text ∈ texts, ∀ m, replyOf? text ≠ some (id, m)

/-- Messages with other numbers leave a command alone. -/
theorem IsIdle.receiveAll (h : d.IsIdle) (hSilent : Silent id texts) :
    ∃ d', d.follow (texts.map .receive) = d' ∧ d'.IsIdle ∧ d'.nextId = d.nextId ∧
      d'.call? id = d.call? id := by
  induction texts generalizing d with
  | nil => exact ⟨d, rfl, h, rfl, rfl⟩
  | cons text rest ih =>
      obtain ⟨hText, hRest⟩ := List.forall_mem_cons.mp hSilent
      obtain ⟨d', hFollow, hIdle, hNext, hCall⟩ := ih (h.receive text) hRest
      refine ⟨d', (h.follow_receive text _).trans hFollow, hIdle, hNext.trans (nextId_take text), ?_⟩
      have hNone : (Event.receive text).replyTo? id = none := by
        rw [Option.eq_none_iff_forall_ne_some]
        intro m hBrings
        obtain ⟨_, hEq, hReply⟩ := Event.replyTo?_eq_some_iff.mp hBrings
        cases hEq
        exact hText m hReply
      rw [hCall, call?_take, hNone]

/-- What the texts bring for the command with that number: one message, or none. -/
inductive Brings (id : Nat) : List String → Option Json → Prop where
  | message {before after : List String} {text : String} {m : Json} (hBefore : Silent id before)
      (hText : replyOf? text = some (id, m)) (hAfter : Silent id after) :
      Brings id (before ++ text :: after) (some m)
  | nothing {texts : List String} (hSilent : Silent id texts) : Brings id texts none

/-- How a command ends for which one message comes, or none. -/
def endOf : Option Json → Outcome
  | some m => .answered m
  | none => .timedOut

namespace IsIdle

/-- After all texts the slot of a waiting command holds the message that they bring for it. -/
theorem collect (h : d.IsIdle) {reply : Option Json} (hBrings : Brings id texts reply)
    (hCall : d.call? id = some ⟨method, params, .waiting, .empty⟩) :
    ∃ d', d.follow (texts.map .receive) = d' ∧ d'.IsIdle ∧ d'.nextId = d.nextId ∧
      d'.call? id = some ⟨method, params, .waiting, reply.elim .empty .filled⟩ := by
  cases hBrings with
  | nothing hSilent =>
      obtain ⟨d', hFollow, hIdle, hNext, hSame⟩ := h.receiveAll hSilent
      exact ⟨d', hFollow, hIdle, hNext, hSame.trans hCall⟩
  | @message before after text m hBefore hText hAfter =>
      obtain ⟨d₁, hFollow, hIdle, hNext, hSame⟩ := h.receiveAll hBefore
      rw [hCall] at hSame
      have hEntry : id ∈ d₁.pending :=
        (hIdle.sound.holdsEntry_iff hSame).mpr (.inl ⟨rfl, .inr rfl⟩)
      have hFilled : (d₁.take text).call? id = some ⟨method, params, .waiting, .filled m⟩ := by
        rw [call?_take, Event.replyTo?_eq_some_iff.mpr ⟨text, rfl, hText⟩]
        simp [hEntry, hSame]
      obtain ⟨d', hFollow', hIdle', hNext', hSame'⟩ := (hIdle.receive text).receiveAll hAfter
      refine ⟨d', ?_, hIdle', ?_, hSame'.trans hFilled⟩
      · rw [List.map_append, List.map_cons, follow_append, hFollow, hIdle.follow_receive, hFollow']
      · rw [hNext', nextId_take, hNext]

/-- A waiting command ends with the message in its slot, or because its time is up. -/
theorem finish (h : d.IsIdle) {reply : Option Json}
    (hCall : d.call? id = some ⟨method, params, .waiting, reply.elim .empty .filled⟩) :
    ∃ d', d.follow (Endpoint.ending id) = d' ∧ d'.IsIdle ∧ d'.nextId = d.nextId ∧
      d'.outcome? id = some (endOf reply) := by
  cases reply with
  | none =>
      have hGiveUp := Happens.giveUp hCall rfl rfl
      have hOverdue : (d.move id .overdue).call? id = some ⟨method, params, .overdue, .empty⟩ :=
        call?_move_self hCall
      have hWithdraw := Happens.withdraw hOverdue rfl
      have hSound := (h.sound.step hGiveUp.step_eq).step hWithdraw.step_eq
      refine ⟨_, ?_, ⟨hSound, h.reading, h.writing, h.written⟩, rfl, ?_⟩
      · rw [Endpoint.ending, follow_cons_of_none (by simp [step, hCall]), hGiveUp.follow_cons,
          hWithdraw.follow_cons]
        rfl
      · exact (outcome?_of_call? (call?_move_self hOverdue)).mpr rfl
  | some m =>
      have hAnswer := Happens.answer hCall rfl rfl
      have hEnded : (d.move id (.ended (.answered m))).call? id =
          some ⟨method, params, .ended (.answered m), .filled m⟩ := call?_move_self hCall
      refine ⟨_, ?_, ⟨h.sound.step hAnswer.step_eq, h.reading, h.writing, h.written⟩, rfl, ?_⟩
      · rw [Endpoint.ending, hAnswer.follow_cons, follow_cons_of_none (by simp [step, hEnded]),
          follow_cons_of_none (by simp [step, hEnded])]
        rfl
      · exact (outcome?_of_call? hEnded).mpr rfl

/-- An idle client that sends a command is idle again after the command has ended. -/
theorem command (h : d.IsIdle) {server : Server σ} {s s' : σ} {reply : Option Json}
    (hReact : server.react ⟨d.nextId, method, params⟩ s = (texts, s')) (hBrings : Brings d.nextId texts reply) :
    ∃ d', server.command method params (d, s) = (endOf reply, d', s') ∧ d'.IsIdle ∧
      d'.nextId = d.nextId + 1 := by
  obtain ⟨d₁, hSend, hIdle₁, hNext₁, hCall₁⟩ := h.send method params
  obtain ⟨d₂, hReceive, hIdle₂, hNext₂, hCall₂⟩ := hIdle₁.collect hBrings hCall₁
  obtain ⟨d₃, hFinish, hIdle₃, hNext₃, hOutcome⟩ := hIdle₂.finish hCall₂
  refine ⟨d₃, ?_, hIdle₃, by omega⟩
  have hFollow : d.follow ([.begin method params, .enter d.nextId, .handOn d.nextId, .write] ++
      texts.map .receive ++ Endpoint.ending d.nextId) = d₃ := by
    rw [follow_append, follow_append, hSend, hReceive, hFinish]
  rw [Server.command_eq hReact hFollow, hOutcome, Option.getD_some]

end IsIdle

end Dispatch

/-! ### Replies nested so and so deep -/

open Dispatch

/-- The texts hold one reply to the command with that number. It is nested so deep and brings this result. -/
def Replied (texts : List String) (id depth : Nat) (result : Json) : Prop :=
  ∃ before text after m, texts = before ++ text :: after ∧ Silent id before ∧ Silent id after ∧
    Json.Spells text depth m ∧ (m.get? "id").bind Json.nat? = some id ∧ m.get? "error" = none ∧
    m.get? "result" = some result

/-- The reply is brought to the command exactly if it is nested less deep than the limit. -/
theorem Replied.brings {texts : List String} {id depth : Nat} {result : Json}
    (h : Replied texts id depth result) :
    ∃ m, Brings id texts (if depth < Json.depthLimit then some m else none) ∧ m.get? "error" = none ∧
      m.get? "result" = some result := by
  obtain ⟨before, text, after, m, rfl, hBefore, hAfter, hSpells, hId, hError, hResult⟩ := h
  refine ⟨m, ?_, hError, hResult⟩
  have hReply : replyOf? text = if depth < Json.depthLimit then some (id, m) else none := by
    rw [replyOf?, hSpells.parse?]
    split
    · rw [Option.bind_some, hId, Option.map_some]
    · rfl
  split
  · next hDepth => exact .message hBefore (by rw [hReply, if_pos hDepth]) hAfter
  · next hDepth =>
      refine .nothing fun text' hText' m' => ?_
      rcases List.mem_append.mp hText' with hMem | hMem
      · exact hBefore text' hMem m'
      · rcases List.mem_cons.mp hMem with rfl | hMem
        · rw [hReply, if_neg hDepth]
          nofun
        · exact hAfter text' hMem m'

/-- In the states `K` the server answers a command with a result of a certain kind, in a reply that is nested
so deep, and is in one of the states `K'` afterwards. -/
def Server.Answers (server : Server σ) (K : σ → Prop) (method : String) (params : Json)
    (kind : (depth : Nat) → Json → Prop) (K' : σ → Prop) : Prop :=
  ∀ s, K s → ∀ id < Word.limit, ∃ texts s' depth result,
    server.react ⟨id, method, params⟩ s = (texts, s') ∧ Replied texts id depth result ∧
      kind depth result ∧ K' s'

/-- The client is idle, its next `n` commands have numbers of 64 bits, and the server is in one of the states
`K`. -/
def ReadyFor (n : Nat) (K : σ → Prop) (s : Dispatch × σ) : Prop :=
  s.1.IsIdle ∧ s.1.nextId + n ≤ Word.limit ∧ K s.2

theorem ReadyFor.mono {n m : Nat} {K : σ → Prop} {s : Dispatch × σ} (h : ReadyFor n K s) (hLe : m ≤ n) :
    ReadyFor m K s :=
  ⟨h.1, by have := h.2.1; omega, h.2.2⟩

section

variable {server : Server σ} {K K' : σ → Prop} {method : String} {params : Json}
  {kind : Nat → Json → Prop}

/-- What one command comes to. -/
theorem Server.Answers.exchange (h : server.Answers K method params kind K') (secs : Nat) {n : Nat}
    {s : Dispatch × σ} (hs : ReadyFor (n + 1) K s) :
    ∃ s' depth result, kind depth result ∧ ReadyFor n K' s' ∧
      (server.link secs).exchange method params s =
        (if depth < Json.depthLimit then .ok result else .error (.timeout method secs), s') := by
  obtain ⟨d, s⟩ := s
  obtain ⟨hIdle, hRoom, hK⟩ := hs
  have hNumber : d.nextId < Word.limit := by
    have hRoom : d.nextId + (n + 1) ≤ Word.limit := hRoom
    omega
  obtain ⟨texts, s', depth, result, hReact, hReplied, hKind, hK'⟩ := h s hK d.nextId hNumber
  obtain ⟨m, hBrings, hError, hResult⟩ := hReplied.brings
  obtain ⟨d', hCommand, hIdle', hNext⟩ := hIdle.command hReact hBrings
  refine ⟨(d', s'), depth, result, hKind, ⟨hIdle', ?_, hK'⟩, ?_⟩
  · show d'.nextId + n ≤ Word.limit
    rw [hNext, Nat.add_assoc, Nat.add_comm 1]
    exact hRoom
  · simp only [Server.link, Link.ofOutcomes, hCommand]
    split
    · simp [endOf, Outcome.toResult, hError, hResult]
    · rfl

/-- Replies that are not nested too deep reach their commands. -/
theorem Server.Answers.replies (h : server.Answers K method params kind K')
    (hKind : ∀ depth result, kind depth result → depth < Json.depthLimit) (secs n : Nat) :
    (server.link secs).Replies (ReadyFor (n + 1) K) method params (fun r => ∃ depth, kind depth r)
      (ReadyFor n K') := by
  intro s hs
  obtain ⟨s', depth, result, hResult, hReady, hExchange⟩ := h.exchange secs hs
  rw [if_pos (hKind depth result hResult)] at hExchange
  exact ⟨result, s', ⟨depth, hResult⟩, hReady, hExchange⟩

/-- A command whose reply is nested too deep waits until its time is up. -/
theorem Server.Answers.timeout (h : server.Answers K method params kind K')
    (hKind : ∀ depth result, kind depth result → Json.depthLimit ≤ depth) (secs : Nat) {n : Nat}
    {s : Dispatch × σ} (hs : ReadyFor (n + 1) K s) :
    ∃ s', ReadyFor n K' s' ∧
      (server.link secs).exchange method params s = (.error (.timeout method secs), s') := by
  obtain ⟨s', depth, result, hResult, hReady, hExchange⟩ := h.exchange secs hs
  rw [if_neg (Nat.not_lt_of_le (hKind depth result hResult))] at hExchange
  exact ⟨s', hReady, hExchange⟩

end

/-! ### Scripts -/

theorem nat?_natCast {n : Nat} (h : n < Word.limit) : Json.nat? (.number (.whole n)) = some n := by
  rw [Json.nat?, if_pos ⟨Int.natCast_nonneg n, Int.ofNat_lt.mpr h⟩, Int.toNat_natCast]

/-- What an endpoint writes in reply to a command is nested one level deeper than the result. -/
theorem replied_replyText {id : Nat} (hId : id < Word.limit) {result : Json} (h : result.IsRegular) :
    Replied [Endpoint.replyText id [("result", result)]] id (result.nesting + 1) result := by
  let message : Json := .object [("id", .number (.whole id)), ("result", result)]
  have hOrder : "id" < "result" := by decide
  have hText : Endpoint.replyText id [("result", result)] = message.compact := by
    simp [Endpoint.replyText, Json.putField, hOrder, message]
  have hRegular : message.IsRegular := by
    have hLow : -(Word.signedLimit : Int) ≤ (id : Int) :=
      Int.le_trans (Int.neg_nonpos_of_nonneg (Int.natCast_nonneg _)) (Int.natCast_nonneg id)
    have hHigh : (id : Int) < Word.limit := Int.ofNat_lt.mpr hId
    rw [Json.IsRegular]
    refine ⟨List.pairwise_pair.mpr hOrder, ?_⟩
    simp [Json.FieldsRegular, Json.IsRegular, hLow, hHigh, h]
  have hNesting : message.nesting = result.nesting + 1 := by
    simp [message, Json.nesting, Json.nestingFields]
  have hNumber : message.get? "id" = some (.number (.whole id)) := by
    simp [message, Json.get?]
  refine ⟨[], _, [], message, rfl, List.forall_mem_nil _, List.forall_mem_nil _, ?_, ?_, ?_, ?_⟩
  · rw [hText, ← hNesting]
    exact Json.spells_compact hRegular
  · rw [hNumber, Option.bind_some, nat?_natCast hId]
  all_goals simp [message, Json.get?, List.lookup_cons]

/-- The texts that a scripted reply consists of. -/
def Scripted.texts (id : Nat) (reply : Scripted) : List String :=
  reply.before ++ (reply.body.map (Endpoint.replyText id)).toList

/-- Only the end of the writer and of the reader concern the connection. -/
theorem Dispatch.connection_of_step {d d' : Dispatch} {e : Event} (hStep : d.step e = some d')
    (hQuiet : e ≠ .stopWriting ∧ e ≠ .stopReading ∧ e ≠ .clear) :
    d'.reader = d.reader ∧ d'.writing = d.writing := by
  obtain ⟨hWriter, hReader, hClear⟩ := hQuiet
  cases happens_of_step hStep with
  | stopWriting => exact absurd rfl hWriter
  | stopReading => exact absurd rfl hReader
  | clear => exact absurd rfl hClear
  | receive text _ => exact ⟨reader_take text, writing_take text⟩
  | _ => exact ⟨rfl, rfl⟩

theorem Dispatch.connection_follow (d : Dispatch) {events : List Event}
    (hQuiet : ∀ e ∈ events, e ≠ .stopWriting ∧ e ≠ .stopReading ∧ e ≠ .clear) :
    (d.follow events).reader = d.reader ∧ (d.follow events).writing = d.writing := by
  induction events generalizing d with
  | nil => exact ⟨rfl, rfl⟩
  | cons e rest ih =>
      obtain ⟨hFirst, hRest⟩ := List.forall_mem_cons.mp hQuiet
      cases hStep : d.step e with
      | none =>
          rw [follow_cons_of_none hStep]
          exact ih d hRest
      | some d' =>
          rw [(happens_of_step hStep).follow_cons]
          obtain ⟨hReader, hWriting⟩ := connection_of_step hStep hFirst
          obtain ⟨hReader', hWriting'⟩ := ih d' hRest
          exact ⟨hReader'.trans hReader, hWriting'.trans hWriting⟩

/-- A command to a server leaves the connection as it is. -/
theorem Server.connection_command (server : Server σ) (method : String) (params : Json)
    (s : Dispatch × σ) :
    (server.command method params s).2.1.reader = s.1.reader ∧
      (server.command method params s).2.1.writing = s.1.writing := by
  apply connection_follow
  intro e he
  simp only [Endpoint.ending, List.mem_append, List.mem_cons, List.not_mem_nil, or_false,
    List.mem_map] at he
  rcases he with ((rfl | rfl | rfl | rfl) | ⟨text, _, rfl⟩) | rfl | rfl | rfl <;> exact ⟨nofun, nofun, nofun⟩

namespace Endpoint

/-- An endpoint that follows a script without closing the connection, as a server. -/
def server : Server (List Scripted) where
  react request
    | reply :: replies => (reply.texts request.id, replies)
    | [] => (Scripted.fallback.texts request.id, [])

/-- The connection is there, and the script does not close it. -/
structure StaysOpen (e : Endpoint) : Prop where
  reading : e.dispatch.reader = .reading
  writing : e.dispatch.writing = true
  script : ∀ reply ∈ e.replies, reply.closes = false

theorem reaction_eq (id : Nat) {reply : Scripted} (h : reply.closes = false) :
    reaction id reply = (reply.texts id).map .receive := by
  cases hBody : reply.body <;> simp [reaction, Scripted.texts, h, hBody]

namespace StaysOpen

variable {e : Endpoint}

/-- While it does not close the connection, the endpoint does what the server does. -/
theorem command (h : e.StaysOpen) (method : String) (params : Json) :
    ∃ e', e.command method params = ((server.command method params (e.dispatch, e.replies)).1, e') ∧
      (e'.dispatch, e'.replies) = (server.command method params (e.dispatch, e.replies)).2 ∧
      e'.StaysOpen := by
  obtain ⟨hReadingAfter, hWritingAfter⟩ :=
    server.connection_command method params (e.dispatch, e.replies)
  obtain ⟨d, replies, received⟩ := e
  obtain ⟨hReading, hWriting, hScript⟩ := h
  simp only at hReading hWriting hScript
  rw [hReading] at hReadingAfter
  rw [hWriting] at hWritingAfter
  -- Both take the next reply of the script, or the reply for the end of it.
  obtain ⟨reply, rest, hNext, hReply, hRest⟩ : ∃ reply rest,
      (replies = reply :: rest ∨ replies = [] ∧ reply = .fallback ∧ rest = []) ∧
        reply.closes = false ∧ ∀ reply ∈ rest, reply.closes = false := by
    cases replies with
    | nil => exact ⟨.fallback, [], .inr ⟨rfl, rfl, rfl⟩, rfl, List.forall_mem_nil _⟩
    | cons reply replies => exact ⟨reply, replies, .inl rfl, List.forall_mem_cons.mp hScript⟩
  have hReact : server.react ⟨d.nextId, method, params⟩ replies = (reply.texts d.nextId, rest) := by
    rcases hNext with rfl | ⟨rfl, rfl, rfl⟩ <;> rfl
  obtain ⟨d', hFollow⟩ : ∃ d', d.follow ([.begin method params, .enter d.nextId, .handOn d.nextId, .write] ++
      (reply.texts d.nextId).map .receive ++ ending d.nextId) = d' := ⟨_, rfl⟩
  have hSent : (d.follow [.begin method params, .enter d.nextId, .handOn d.nextId]).follow
      (.write :: reaction d.nextId reply ++ ending d.nextId) = d' := by
    rw [reaction_eq d.nextId hReply, ← Dispatch.follow_append]
    exact hFollow
  rw [Server.command_eq hReact hFollow] at hReadingAfter hWritingAfter ⊢
  refine ⟨⟨d', rest, ⟨d.nextId, method, params⟩ :: received⟩, ?_, rfl, hReadingAfter, hWritingAfter, hRest⟩
  rcases hNext with rfl | ⟨rfl, rfl, rfl⟩ <;>
    simp only [Endpoint.command, hReading, hWriting, hSent, Bool.not_true, Bool.false_eq_true,
      bne_self_eq_false, ↓reduceIte]

/-- A talk with the endpoint goes as one with the server. -/
theorem run_link (h : e.StaysOpen) {α : Type} (secs : Nat) (t : Talk α) :
    (t.run (link secs) e).1 = (t.run (server.link secs) (e.dispatch, e.replies)).1 := by
  induction t generalizing e with
  | value a => rfl
  | failure f => rfl
  | send method params next ih =>
      obtain ⟨e', hCommand, hState, hOpen⟩ := h.command method params
      simp only [Talk.run, link, Server.link, Link.ofOutcomes, hCommand]
      rw [← hState]
      exact ih _ hOpen

end StaysOpen

end Endpoint

end PageLogic.DevTools
