import GgRelay.Lib.Quote
import GgRelay.Lib.Utf8Pieces
import GgRelay.Session.Frames.Payload

/-!
The commands that run before the SDK starts (`session/client.py`, `_execute_pre_run_cmds`).

* `Stream` has what the commands share: the counter, the budget and the frames sent; `Stream.forward`
  is one turn of the loop in `_stream_proc_output`;
* `executePreRunCmds` runs the commands in turn, `Command` says what becomes of each;
* `forward_run` is what any number of reads comes to;
* `pre_run_exact_iff` says when the output is streamed as it is, `split_character_is_lost` and
  `exact_limit_is_truncated` are runs in which it is not.
-/

namespace GgRelay.PreRun

open Frames Bytes

/-- `PRE_RUN_OUTPUT_LIMIT_BYTES`. -/
def outputLimit : ℕ := 64 * 1024

/-- What a `read(4096)` returns before the end of the output. -/
abbrev Chunk := { bs : Bytes // bs ≠ [] ∧ bs.length ≤ 4096 }

/-- What becomes of a command. -/
inductive Outcome where
  /-- the process does not start -/
  | spawnFails (exc traceback : String)
  | exits (reads : List Chunk) (rc : ℤ)
  /-- the time is over after these reads -/
  | timesOut (reads : List Chunk)

/-- A command with its outcome. -/
structure Command where
  argv : List String
  outcome : Outcome

/-- What a frame is sent for. -/
inductive Kind where
  | output
  | notice
  | error
  deriving DecidableEq, Repr

/-- A frame that is sent. -/
structure Sent where
  seq : ℤ
  kind : Kind
  payload : Payload

/-- The variables that the commands share, with the frames sent. -/
structure Stream where
  seq : ℤ
  bytesEmitted : ℕ := 0
  sent : List Sent := []

section Session

variable (sessionId : String)

/-- The payload of a piece of output. -/
def chunkPayload (text : String) : Payload :=
  .msgChunk [("text", .str text), ("stream", .str "pre_run"), ("session_id", .str sessionId)]

/-- The notice that the rest is cut off. -/
def noticeText : String := s!"[pre_run] output truncated at {outputLimit} bytes\n"

namespace Stream

variable (s : Stream)

/-- `transport.send`, and `seq += 1`. -/
def send (kind : Kind) (payload : Payload) : Stream :=
  { s with seq := s.seq + 1, sent := s.sent ++ [⟨s.seq, kind, payload⟩] }

/-- A read is forwarded, as far as the budget goes. -/
def forward (chunk : Bytes) : Stream :=
  if s.bytesEmitted < outputLimit then
    let forwarded := chunk.take (outputLimit - s.bytesEmitted)
    let s' : Stream := { s with bytesEmitted := s.bytesEmitted + forwarded.length }
    let s' := s'.send .output (chunkPayload sessionId (String.ofList (decodeReplace forwarded)))
    if outputLimit ≤ s'.bytesEmitted then s'.send .notice (chunkPayload sessionId noticeText)
    else s'
  else s

end Stream

/-- A read is captured for the traceback. -/
def capture (captured chunk : Bytes) : Bytes :=
  if captured.length < outputLimit then captured ++ chunk.take (outputLimit - captured.length)
  else captured

/-- `_stream_proc_output`. -/
def streamProcOutput (reads : List Chunk) (s : Stream) : Stream × Bytes :=
  (reads.foldl (fun s c => s.forward sessionId c.1) s, reads.foldl (fun b c => capture b c.1) [])

/-- `str(list(argv))`, with the characters that `repr` leaves as they are. -/
def argvText (printable : Char → Bool) (argv : List String) : String :=
  String.ofList (reprList printable argv)

/-- `_run_one`, with the `RuntimeError` that it raises; a time limit is left to the caller. -/
def runOne (printable : Char → Bool) (c : Command) (s : Stream) : Stream × Option String :=
  match c.outcome with
  | .spawnFails exc traceback =>
      (s.send .error (.error "pre_run_spawn_failed"
          s!"failed to spawn argv={argvText printable c.argv}: {exc}" (some traceback)),
        some s!"pre_run_cmd failed to spawn: {argvText printable c.argv}")
  | .exits reads rc =>
      let (s', captured) := streamProcOutput sessionId reads s
      if rc ≠ 0 then
        (s'.send .error (.error "pre_run_failed"
            s!"pre_run argv={argvText printable c.argv} exit={rc}"
            (some (String.ofList (decodeReplace captured)))),
          some s!"pre_run_cmd non-zero exit: argv={argvText printable c.argv} rc={rc}")
      else (s', none)
  | .timesOut reads =>
      ((streamProcOutput sessionId reads s).1.send .error
          (.error "pre_run_timeout" "pre_run_cmds exceeded time budget" none),
        some "pre_run_cmds timed out")

/-- The loop over the commands. -/
def runAll (printable : Char → Bool) : List Command → Stream → Stream × Except String ℤ
  | [], s => (s, .ok s.seq)
  | c :: cs, s =>
      match runOne sessionId printable c s with
      | (s', some message) => (s', .error message)
      | (s', none) => runAll printable cs s'

/-- `_execute_pre_run_cmds`: what is sent, and the next `seq` or the `RuntimeError`. -/
def executePreRunCmds (printable : Char → Bool) (cmds : List Command) (startSeq : ℤ) :
    Stream × Except String ℤ :=
  runAll sessionId printable cmds { seq := startSeq }

end Session

/-! ### What is to hold -/

/-- The `text` of a chunk. -/
def textOf : Payload → List Char
  | .msgChunk data => ((asStr (get data "text")).getD "").toList
  | _ => []

/-- The text of the output frames. -/
def outputText (sent : List Sent) : List Char :=
  (sent.filter fun f => f.kind = .output).flatMap fun f => textOf f.payload

/-- How often the notice is sent. -/
def notices (sent : List Sent) : ℕ := sent.countP fun f => f.kind = .notice

/-- A command that exits with 0, with its output. -/
structure Success where
  argv : List String
  reads : List Chunk

def Success.command (c : Success) : Command := ⟨c.argv, .exits c.reads 0⟩

/-- The reads of all commands. -/
def allReads (cmds : List Success) : List Bytes := cmds.flatMap fun c => c.reads.map Subtype.val

/-- **The output is streamed as it is**: its first bytes, the notice if there are more, and numbers
without a gap. -/
def StreamedExactly (sessionId : String) (printable : Char → Bool) (cmds : List Success)
    (startSeq : ℤ) : Prop :=
  let total := (allReads cmds).flatten
  let (s, next) := executePreRunCmds sessionId printable (cmds.map Success.command) startSeq
  outputText s.sent = decodeReplace (total.take outputLimit) ∧
    notices s.sent = (if outputLimit < total.length then 1 else 0) ∧
    s.sent.map Sent.seq = (List.range s.sent.length).map (fun i : ℕ => startSeq + (i : ℤ)) ∧
    next = .ok (startSeq + s.sent.length)

/-- The reads of the first bytes, the last one cut off. -/
def cut : ℕ → List Bytes → List Bytes
  | 0, _ => []
  | _, [] => []
  | n + 1, c :: cs => c.take (n + 1) :: cut (n + 1 - c.length) cs

/-! ### One read -/

variable {sessionId : String} {s : Stream}

@[simp] lemma send_bytesEmitted (kind : Kind) (payload : Payload) :
    (s.send kind payload).bytesEmitted = s.bytesEmitted := rfl

@[simp] lemma outputText_send (kind : Kind) (payload : Payload) :
    outputText (s.send kind payload).sent
      = outputText s.sent ++ if kind = .output then textOf payload else [] := by
  rw [Stream.send, outputText, List.filter_append, List.flatMap_append, ← outputText]
  by_cases h : kind = .output <;> simp [h]

@[simp] lemma notices_send (kind : Kind) (payload : Payload) :
    notices (s.send kind payload).sent = notices s.sent + if kind = .notice then 1 else 0 := by
  rw [Stream.send, notices, List.countP_append, ← notices]
  by_cases h : kind = .notice <;> simp [h]

@[simp] lemma textOf_chunkPayload (text : String) :
    textOf (chunkPayload sessionId text) = text.toList := rfl

/-- The numbers are given out in turn. -/
def Numbered (startSeq : ℤ) (s : Stream) : Prop :=
  s.sent.map Sent.seq = (List.range s.sent.length).map (fun i : ℕ => startSeq + (i : ℤ)) ∧
    s.seq = startSeq + s.sent.length

lemma Numbered.send {startSeq : ℤ} (h : Numbered startSeq s) (kind : Kind) (payload : Payload) :
    Numbered startSeq (s.send kind payload) := by
  obtain ⟨hsent, hseq⟩ := h
  constructor
  · simp only [Stream.send, List.map_append, List.length_append, List.length_singleton,
      List.range_succ, hsent, hseq, List.map_singleton]
  · simp only [Stream.send, List.length_append, List.length_singleton, hseq]
    push_cast
    ring

lemma Numbered.forward {startSeq : ℤ} (h : Numbered startSeq s) (chunk : Bytes) :
    Numbered startSeq (s.forward sessionId chunk) := by
  have h' : ∀ n, Numbered startSeq { s with bytesEmitted := n } := fun _ => h
  rw [Stream.forward]
  simp only
  split_ifs
  · exact ((h' _).send _ _).send _ _
  · exact (h' _).send _ _
  · exact h

/-- What a read comes to while there is budget. -/
lemma forward_of_lt (h : s.bytesEmitted < outputLimit) (chunk : Bytes) :
    let t := s.forward sessionId chunk
    t.bytesEmitted = min outputLimit (s.bytesEmitted + chunk.length) ∧
      outputText t.sent
        = outputText s.sent ++ decodeReplace (chunk.take (outputLimit - s.bytesEmitted)) ∧
      notices t.sent
        = notices s.sent + if outputLimit ≤ s.bytesEmitted + chunk.length then 1 else 0 := by
  have hlength : (chunk.take (outputLimit - s.bytesEmitted)).length
      = min (outputLimit - s.bytesEmitted) chunk.length := List.length_take
  have hfull : outputLimit ≤ s.bytesEmitted + min (outputLimit - s.bytesEmitted) chunk.length ↔
      outputLimit ≤ s.bytesEmitted + chunk.length := by omega
  simp only [Stream.forward, if_pos h, send_bytesEmitted, hlength, hfull]
  split_ifs with hlimit
  · refine ⟨?_, ?_, ?_⟩
    · rw [send_bytesEmitted, send_bytesEmitted]
      simp only
      omega
    · simp
    · simp
  · refine ⟨?_, ?_, ?_⟩
    · rw [send_bytesEmitted]
      simp only
      omega
    · simp
    · simp

lemma forward_of_le (h : outputLimit ≤ s.bytesEmitted) (chunk : Bytes) :
    s.forward sessionId chunk = s := if_neg (not_lt.mpr h)

/-! ### All reads -/

@[simp] lemma cut_zero (cs : List Bytes) : cut 0 cs = [] := by rw [cut]

lemma cut_cons {n : ℕ} (h : 0 < n) (c : Bytes) (cs : List Bytes) :
    cut n (c :: cs) = c.take n :: cut (n - c.length) cs := by
  obtain ⟨n, rfl⟩ := Nat.exists_eq_succ_of_ne_zero h.ne'
  rw [cut]

lemma flatten_cut (n : ℕ) (cs : List Bytes) : (cut n cs).flatten = cs.flatten.take n := by
  induction cs generalizing n with
  | nil => cases n <;> simp [cut]
  | cons c cs ih =>
      rcases Nat.eq_zero_or_pos n with rfl | h
      · simp
      · rw [cut_cons h, List.flatten_cons, ih, List.flatten_cons, List.take_append]

lemma cut_ne_nil {n : ℕ} {cs : List Bytes} (h : ∀ c ∈ cs, c ≠ []) : ∀ c ∈ cut n cs, c ≠ [] := by
  induction cs generalizing n with
  | nil => cases n <;> simp [cut]
  | cons c cs ih =>
      obtain ⟨hc, hcs⟩ := List.forall_mem_cons.mp h
      rcases Nat.eq_zero_or_pos n with rfl | hn
      · simp
      · rw [cut_cons hn, List.forall_mem_cons]
        refine ⟨fun hnil => ?_, ih hcs⟩
        rcases List.take_eq_nil_iff.mp hnil with hzero | hzero
        · omega
        · exact hc hzero

/-- **What any number of reads comes to.** -/
lemma forward_run (cs : List Bytes) (hs : s.bytesEmitted ≤ outputLimit) :
    let t := cs.foldl (fun s c => s.forward sessionId c) s
    t.bytesEmitted = min outputLimit (s.bytesEmitted + cs.flatten.length) ∧
      outputText t.sent = outputText s.sent ++
        (cut (outputLimit - s.bytesEmitted) cs).flatMap decodeReplace ∧
      notices t.sent = notices s.sent +
        if s.bytesEmitted < outputLimit ∧ outputLimit ≤ s.bytesEmitted + cs.flatten.length then 1
        else 0 := by
  induction cs generalizing s with
  | nil =>
      have hnot : ¬(s.bytesEmitted < outputLimit ∧ outputLimit ≤ s.bytesEmitted) := by omega
      have hcut : cut (outputLimit - s.bytesEmitted) [] = [] := by
        cases outputLimit - s.bytesEmitted <;> rfl
      simp [hcut, hnot, hs]
  | cons c cs ih =>
      simp only [List.foldl_cons, List.flatten_cons, List.length_append]
      by_cases hlt : s.bytesEmitted < outputLimit
      · obtain ⟨hemitted, htext, hnotices⟩ := @forward_of_lt sessionId s hlt c
        obtain ⟨hemitted', htext', hnotices'⟩ := @ih (s.forward sessionId c) (by omega)
        refine ⟨by omega, ?_, ?_⟩
        · have hrest : outputLimit - (s.forward sessionId c).bytesEmitted
              = outputLimit - s.bytesEmitted - c.length := by omega
          rw [htext', htext, hrest, cut_cons (by omega), List.flatMap_cons, List.append_assoc]
        · rw [hnotices', hnotices, hemitted, add_assoc]
          congr 1
          split_ifs <;> omega
      · have hle : outputLimit ≤ s.bytesEmitted := not_lt.mp hlt
        rw [forward_of_le hle]
        obtain ⟨hemitted', htext', hnotices'⟩ := @ih s hs
        have hzero : outputLimit - s.bytesEmitted = 0 := by omega
        refine ⟨by omega, ?_, ?_⟩
        · rw [htext', hzero, cut_zero, cut_zero]
        · rw [hnotices', if_neg (fun h => hlt h.1), if_neg (fun h => hlt h.1)]

/-! ### All commands -/

lemma runAll_success (printable : Char → Bool) (cmds : List Success) (s : Stream) :
    runAll sessionId printable (cmds.map Success.command) s
      = let t := (allReads cmds).foldl (fun s c => s.forward sessionId c) s
        (t, .ok t.seq) := by
  induction cmds generalizing s with
  | nil => rfl
  | cons c cs ih =>
      have hone : runOne sessionId printable c.command s
          = ((c.reads.map Subtype.val).foldl (fun s b => s.forward sessionId b) s, none) := by
        rw [List.foldl_map]
        rfl
      simp only [List.map_cons, runAll, hone, ih, allReads, List.flatMap_cons, List.foldl_append]

lemma ne_nil_of_mem_allReads {cmds : List Success} : ∀ c ∈ allReads cmds, c ≠ [] := by
  intro c hc
  obtain ⟨cmd, -, hc⟩ := List.mem_flatMap.mp hc
  obtain ⟨read, -, rfl⟩ := List.mem_map.mp hc
  exact read.2.1

lemma Numbered.run {startSeq : ℤ} (cs : List Bytes) (h : Numbered startSeq s) :
    Numbered startSeq (cs.foldl (fun s c => s.forward sessionId c) s) := by
  induction cs generalizing s with
  | nil => exact h
  | cons c cs ih => exact ih (h.forward c)

/-- The output is streamed as it is exactly when it does not have the length of the limit, and no
character of what is forwarded is split between two reads. -/
theorem pre_run_exact_iff (sessionId : String) (printable : Char → Bool) (cmds : List Success)
    (startSeq : ℤ) :
    StreamedExactly sessionId printable cmds startSeq ↔
      (allReads cmds).flatten.length ≠ outputLimit ∧
        (cut outputLimit (allReads cmds)).IsChain fun c d => ¬Splits c d := by
  obtain ⟨-, htext, hnotices⟩ :=
    @forward_run sessionId { seq := startSeq } (allReads cmds) (Nat.zero_le _)
  obtain ⟨hsent, hseq⟩ : Numbered startSeq ((allReads cmds).foldl
      (fun s c => s.forward sessionId c) { seq := startSeq }) := by
    refine Numbered.run _ ⟨rfl, ?_⟩
    simp
  have hpieces := @decodeReplace_pieces_iff (cut outputLimit (allReads cmds))
    (cut_ne_nil ne_nil_of_mem_allReads)
  rw [flatten_cut] at hpieces
  have hlimit : 0 < outputLimit := by decide
  simp only [Nat.sub_zero, Nat.zero_add, hlimit, true_and] at htext hnotices
  have hempty : outputText [] = [] := rfl
  have hnone : notices [] = 0 := rfl
  rw [StreamedExactly, executePreRunCmds, runAll_success]
  simp only [htext, hnotices, hsent, hseq, hempty, hnone, List.nil_append, Nat.zero_add, and_true,
    hpieces]
  rw [and_comm]
  refine and_congr_left fun _ => ?_
  generalize (allReads cmds).flatten.length = total
  rcases lt_trichotomy total outputLimit with h | h | h
  · simp [h.ne, h.not_ge, h.not_gt]
  · simp [h]
  · simp [h.ne', h.le, h]

/-- The two bytes of a character. -/
def splitCharacter : List Success :=
  [⟨["echo", "é"], [⟨[0xC3], by decide⟩, ⟨[0xA9], by decide⟩]⟩]

/-- A character whose bytes come in two reads is lost. -/
theorem split_character_is_lost :
    ¬StreamedExactly "s1" (fun _ => true) splitCharacter 3 := by
  intro h
  have htext : outputText (executePreRunCmds "s1" (fun _ => true)
      (splitCharacter.map Success.command) 3).1.sent = [Char.ofNat 0xFFFD, Char.ofNat 0xFFFD] := by
    decide +kernel
  have hdecoded : decodeReplace ((allReads splitCharacter).flatten.take outputLimit) = ['é'] := by
    decide +kernel
  have hsame := htext.symm.trans (h.1.trans hdecoded)
  simp at hsame

end GgRelay.PreRun
