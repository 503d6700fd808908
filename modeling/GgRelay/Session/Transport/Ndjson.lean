import GgRelay.Lib.JsonRoundTrip
import GgRelay.Lib.LineReader

/-!
The NDJSON transports, `UnixSocketTransport` and `TcpTransport`: `send` writes a frame as one line,
`recv` reads a line and a frame of it.

* `ofLine` is what `recv` makes of a line, `unixSocketTransport` and `tcpTransport` are the readers
  of the two transports;
* `recv_robust_iff`: for which streams of a peer every `recv` returns an object or raises
  `TransportClosed`, and for which frames the other side gets exactly what was sent.
-/

namespace GgRelay.Ndjson

open Bytes Json JsonRead

/-- What a `recv` returns or raises. -/
inductive Outcome where
  | frame (v : Json)
  | transportClosed
  /-- the `ValueError` of `readline` for a line beyond the limit -/
  | lineTooLong
  /-- what `json.loads` raises besides decoding errors -/
  | raised (e : LoadError)

/-- `recv`, once `readline` has returned; an empty line is the end of the stream. -/
def ofLine (depth : ℕ) (line : Bytes) : Outcome :=
  if line = [] then .transportClosed
  else
    match decode line with
    | none => .transportClosed
    | some cs =>
        match loads depth cs with
        | .ok v => .frame v
        | .error .decode => .transportClosed
        | .error e => .raised e

/-- A transport whose reader has this limit, with so many levels for `json.loads`. -/
def transport (readerLimit depth : ℕ) : LineConfig Outcome where
  limit := readerLimit
  onLine := ofLine depth
  onOverrun := .lineTooLong
  onLost := .transportClosed

/-- `UnixSocketTransport`, with its `_READER_LIMIT`. -/
def unixSocketTransport (depth : ℕ) : LineConfig Outcome := transport (16 * 1024 * 1024) depth

/-- `TcpTransport`, with its `_READER_LIMIT`. -/
def tcpTransport (depth : ℕ) : LineConfig Outcome := transport (16 * 1024 * 1024) depth

/-- What `send` writes for a frame; `none` is an exception of `json.dumps`. -/
def sendBytes (depth : ℕ) (frame : List (String × Json)) : Option Bytes :=
  (dumpsWithin [] depth (.mapping frame)).map fun text => encodeAscii text ++ [LF]

/-! ### A line that was sent -/

section Sent

variable {frame : List (String × Json)} {writer depth : ℕ} {bytes : Bytes}

/-- The line of a frame is its text. -/
lemma sendBytes_eq (h : sendBytes writer frame = some bytes) :
    All IntShort (.mapping frame) ∧ bytes = encodeAscii (write [] (.mapping frame)) ++ [LF] := by
  obtain ⟨text, htext, rfl⟩ := Option.map_eq_some_iff.mp h
  rw [dumpsWithin] at htext
  split_ifs at htext with hfits
  cases htext
  exact ⟨hfits.2, rfl⟩

lemma isLine_sendBytes (h : sendBytes writer frame = some bytes) : IsLine bytes := by
  obtain ⟨-, rfl⟩ := sendBytes_eq h
  refine ⟨_, rfl, fun hmem => ?_⟩
  obtain ⟨c, hc, heq⟩ := List.mem_map.mp hmem
  have hprintable := @write_printable [] nofun (.mapping frame) c hc
  have hnat := congrArg UInt8.toNat heq
  rw [UInt8.toNat_ofNat', Nat.mod_eq_of_lt (by have := hprintable.2; omega)] at hnat
  have := hprintable.1
  rw [hnat] at this
  exact absurd this (by decide)

/-- **A line that was sent is received as its frame exactly if the levels suffice.** -/
lemma ofLine_sendBytes_iff (hjson : All IsJson (.mapping frame))
    (h : sendBytes writer frame = some bytes) :
    ofLine depth bytes = .frame (.mapping frame) ↔ Json.depth (.mapping frame) ≤ depth := by
  obtain ⟨hshort, rfl⟩ := sendBytes_eq h
  have htext : encodeAscii (write [] (.mapping frame)) ++ [LF]
      = encodeAscii (write [] (.mapping frame) ++ ['\n']) := by
    rw [encodeAscii, encodeAscii, List.map_append]
    rfl
  have hascii : ∀ c ∈ write [] (.mapping frame) ++ ['\n'], c.toNat < 128 := by
    intro c hc
    rcases List.mem_append.mp hc with hc | hc
    · have := (@write_printable [] (List.forall_mem_nil _) (.mapping frame) c hc).2
      omega
    · rw [List.mem_singleton.mp hc]
      decide
  have hread := @loads_write_append_iff [] (List.forall_mem_nil _) _ (.mapping frame)
    hjson.keysDistinct hshort depth ['\n'] (List.forall_mem_singleton.mpr rfl)
  rw [image_eq_self hjson] at hread
  rw [ofLine, if_neg (by simp), htext, decode_encodeAscii hascii]
  constructor
  · intro h
    refine (hread.mp ?_).1
    cases hloads : loads depth (write [] (.mapping frame) ++ ['\n']) with
    | ok v =>
        simp only [hloads, Outcome.frame.injEq] at h
        rw [h]
    | error e => cases e <;> simp [hloads] at h
  · intro hdepth
    simp only [hread.mpr ⟨hdepth, rfl⟩]

end Sent

/-! ### What a peer may send -/

/-- An object, or `TransportClosed`. -/
def Robust (o : Outcome) : Prop := o = .transportClosed ∨ ∃ d, o = .frame (.mapping d)

/-- A line that is no text in UTF-8, no JSON, or an object; its numbers and its nesting are within
what the interpreter reads. -/
def BenignLine (depth : ℕ) (line : Bytes) : Prop :=
  ∀ cs, decode line = some cs →
    loads depth cs = .error .decode ∨ ∃ d, loads depth cs = .ok (.mapping d)

/-- A stream without a line beyond the limit, all of whose lines are benign, the last one included
that may lack its line feed. -/
def BenignStream (limit depth : ℕ) (bs : Bytes) : Prop :=
  LinesWithin limit bs ∧ ∀ p ∈ LineReader.parts bs, BenignLine depth p

variable {limit depth : ℕ}

lemma robust_ofLine_iff (p : Bytes) : Robust (ofLine depth p) ↔ BenignLine depth p := by
  rw [ofLine, BenignLine]
  by_cases hp : p = []
  · subst hp
    rw [if_pos rfl]
    refine ⟨fun _ cs hcs => ?_, fun _ => Or.inl rfl⟩
    obtain rfl : [] = cs := Option.some.inj hcs
    left
    cases depth <;> rfl
  · rw [if_neg hp]
    cases hdecode : decode p with
    | none => simp [Robust]
    | some cs =>
        simp only [Option.some.injEq, forall_eq']
        cases hloads : loads depth cs with
        | ok v => simp [Robust]
        | error e => cases e <;> simp [Robust]

/-- **Every `recv` on a stream is robust, whatever the chunks and the interleaving, exactly if the
stream is benign.** -/
theorem robust_iff (bs : Bytes) :
    (∀ r, (LineReader.system (transport limit depth)).Reachable r → r.got = bs →
      ∀ o ∈ r.log, Robust o) ↔ BenignStream limit depth bs := by
  constructor
  · intro h
    obtain ⟨r, hr, hgot, -, -, hlog⟩ := LineReader.exists_drained (transport limit depth) bs
    have hall := h r hr hgot
    rw [hlog, LineReader.outcomes, List.forall_mem_append, List.forall_mem_map,
      List.forall_mem_singleton] at hall
    have houtcome : ∀ {n : ℕ} {p : Bytes},
        Robust (LineReader.outcome (transport limit depth) n p) →
          p.length ≤ n ∧ BenignLine depth p := by
      intro n p hp
      rw [LineReader.outcome] at hp
      split_ifs at hp with hn
      · exact ⟨hn, (robust_ofLine_iff p).mp hp⟩
      · simp [Robust, transport] at hp
    constructor
    · rw [LineReader.linesWithin_iff_parts]
      exact ⟨fun l hl => (houtcome (hall.1 l hl)).1, (houtcome hall.2).1⟩
    · rw [LineReader.parts, List.forall_mem_append, List.forall_mem_singleton]
      exact ⟨fun l hl => (houtcome (hall.1 l hl)).2, (houtcome hall.2).2⟩
  · rintro ⟨hwithin, hlines⟩ r hr rfl o ho
    rcases (LineReader.synced hr hwithin).mem_log ho with rfl | rfl | ⟨p, hp, rfl⟩
    · exact Or.inl rfl
    · exact Or.inl rfl
    · exact (robust_ofLine_iff p).mpr (hlines p hp)

/-! ### What the other side gets -/

/-- A frame with JSON values and what `send` wrote for it. -/
structure Sent (writer : ℕ) where
  frame : List (String × Json)
  isJson : All IsJson (.mapping frame)
  bytes : Bytes
  sent : sendBytes writer frame = some bytes

variable {writer : ℕ}

/-- What was written for the frames. -/
def wire (fs : List (Sent writer)) : Bytes := (fs.map Sent.bytes).flatten

lemma splitLF_wire (fs : List (Sent writer)) : splitLF (wire fs) = (fs.map Sent.bytes, []) := by
  refine splitLF_unique ⟨(List.append_nil _).symm, ?_, List.not_mem_nil⟩
  rw [List.forall_mem_map]
  exact fun f _ => isLine_sendBytes f.sent

/-- The other side gets the frames in their order and `TransportClosed` after them, and once the
stream is closed no `recv` stays open. -/
def ReceivesExactly (c : LineConfig Outcome) (fs : List (Sent writer)) : Prop :=
  ∀ r, (LineReader.system c).Reachable r → r.lost = false → r.got <+: wire fs →
    (r.eof = true → r.got = wire fs) →
      (r.log <+: fs.map (fun f => .frame (.mapping f.frame)) ++
        List.replicate r.log.length .transportClosed) ∧
      ∀ e s, e = .call ∨ e = .resume → LineReader.step c r e = some s → r.eof = true →
        s.log.length = s.calls

/-- A frame that the other side can read. -/
def Sent.Fits (limit depth : ℕ) (f : Sent writer) : Prop :=
  f.bytes.length ≤ limit + 1 ∧ Json.depth (.mapping f.frame) ≤ depth

/-- The lines that have arrived are the first lines that were written. -/
lemma lines_initial_wire {fs : List (Sent writer)} {got : Bytes} (h : got <+: wire fs) :
    (splitLF got).1 <+: fs.map Sent.bytes := by
  obtain ⟨rest, hrest⟩ := h
  obtain ⟨hcut, hlines, -⟩ := cut_splitLF got
  have hwire : (splitLF got).1.flatten ++ ((splitLF got).2 ++ rest) = wire fs := by
    rw [← List.append_assoc, ← hcut, hrest]
  have hfirst := (lines_initial hlines hwire).1
  rw [splitLF_wire] at hfirst
  exact ⟨_, hfirst.symm⟩

lemma onLine_sent {fs : List (Sent writer)} (h : ∀ f ∈ fs, Json.depth (.mapping f.frame) ≤ depth) :
    (fs.map Sent.bytes).map (ofLine depth) = fs.map fun f => .frame (.mapping f.frame) := by
  rw [List.map_map]
  exact List.map_congr_left fun f hf => (ofLine_sendBytes_iff f.isJson f.sent).mpr (h f hf)

/-- **The frames that were sent are received, however the bytes are split, exactly if each of them
fits.** -/
theorem receives_iff (fs : List (Sent writer)) :
    ReceivesExactly (transport limit depth) fs ↔ ∀ f ∈ fs, f.Fits limit depth := by
  have hsplit := splitLF_wire fs
  constructor
  · intro h f hf
    obtain ⟨r, hr, hgot, -, hlost, hlog⟩ :=
      LineReader.exists_drained (transport limit depth) (wire fs)
    have hprefix := (h r hr hlost (hgot ▸ List.prefix_refl _) fun _ => hgot).1
    rw [LineReader.outcomes, hsplit] at hlog
    rw [hlog] at hprefix
    have hframes := List.prefix_of_prefix_length_le ((List.prefix_append _ _).trans hprefix)
      (List.prefix_append _ _) (by simp)
    have houtcomes := hframes.eq_of_length (by simp)
    rw [List.map_map, List.map_inj_left] at houtcomes
    have hf := houtcomes f hf
    rw [Function.comp_apply, LineReader.outcome] at hf
    split_ifs at hf with hlength
    · exact ⟨hlength, (ofLine_sendBytes_iff f.isJson f.sent).mp hf⟩
    · simp [transport] at hf
  · intro hfits r hr hlost hgot heof
    have hwithin : LinesWithin limit (wire fs) := by
      rw [LineReader.linesWithin_iff_parts, hsplit, List.forall_mem_map]
      exact ⟨fun f hf => (hfits f hf).1, Nat.zero_le _⟩
    have hsynced := LineReader.synced hr (by
      obtain ⟨rest, hrest⟩ := hgot
      exact LinesWithin.of_append (hrest ▸ hwithin))
    have hframes := onLine_sent fun f hf => (hfits f hf).2
    constructor
    · rcases hsynced.log_eq hlost with hlog | ⟨heof', k, hlog⟩
      · have hfirst := (lines_initial_wire hgot).map (ofLine depth)
        rw [hframes] at hfirst
        exact (hlog.trans hfirst).trans (List.prefix_append _ _)
      · rw [heof heof', hsplit] at hlog
        have hclosed : r.log = fs.map (fun f => .frame (.mapping f.frame)) ++
            List.replicate (k + 1) .transportClosed := by
          rw [hlog, List.replicate_succ, ← hframes]
          rfl
        have hlength := congrArg List.length hclosed
        rw [List.length_append, List.length_replicate] at hlength
        have hprefix : List.replicate (k + 1) Outcome.transportClosed <+:
            List.replicate r.log.length .transportClosed := by
          rw [List.prefix_replicate_iff, List.length_replicate]
          exact ⟨by omega, rfl⟩
        conv_lhs => rw [hclosed]
        exact (List.prefix_append_right_inj _).mpr hprefix
    · exact fun e s he hs heof => LineReader.answered_of_eof hr he hs heof

/-! ### The two transports -/

/-- The transports with this `recv` and this `send`. -/
inductive Kind where
  | unixSocket
  | tcp

/-- The reader of a transport. -/
def Kind.config : Kind → ℕ → LineConfig Outcome
  | .unixSocket => unixSocketTransport
  | .tcp => tcpTransport

/-- A line within the limit is answered. -/
lemma line_answered (T : Kind) (depth : ℕ) {l : Bytes} (hl : IsLine l)
    (hlength : l.length ≤ 16 * 1024 * 1024 + 1) :
    ∃ r, (LineReader.system (T.config depth)).Reachable r ∧ r.got = l ∧ ofLine depth l ∈ r.log := by
  have hlimit : (T.config depth).limit = 16 * 1024 * 1024 := by cases T <;> rfl
  have honLine : (T.config depth).onLine = ofLine depth := by cases T <;> rfl
  obtain ⟨r, hr, hgot, -, -, hlog⟩ := LineReader.exists_drained (T.config depth) l
  refine ⟨r, hr, hgot, ?_⟩
  have hsplit : splitLF l = ([l], []) := splitLF_unique ⟨by simp, by simpa using hl, nofun⟩
  rw [hlog, LineReader.outcomes, hsplit, List.map_singleton, LineReader.outcome, hlimit,
    if_pos hlength, honLine]
  exact List.mem_append_left _ List.mem_cons_self

/-- A line of brackets within the limit raises a `RecursionError`. -/
theorem brackets_raise (T : Kind) {depth : ℕ} (hdepth : depth < 16 * 1024 * 1024) :
    ∃ r, (LineReader.system (T.config depth)).Reachable r ∧
      r.got = encodeAscii (List.replicate (depth + 1) '[' ++ ['\n']) ∧
      .raised .tooDeep ∈ r.log := by
  have htext : encodeAscii (List.replicate (depth + 1) '[' ++ ['\n'])
      = encodeAscii (List.replicate (depth + 1) '[') ++ [LF] := by
    rw [encodeAscii, encodeAscii, List.map_append]
    rfl
  have hopen : LF ∉ encodeAscii (List.replicate (depth + 1) '[') := by
    rw [encodeAscii, List.map_replicate]
    exact fun hmem => absurd (List.eq_of_mem_replicate hmem) (by decide)
  have hascii : ∀ c ∈ List.replicate (depth + 1) '[' ++ ['\n'], c.toNat < 128 := by
    intro c hc
    rcases List.mem_append.mp hc with hc | hc
    · rw [List.eq_of_mem_replicate hc]
      decide
    · rw [List.mem_singleton.mp hc]
      decide
  have hline : ofLine depth (encodeAscii (List.replicate (depth + 1) '[' ++ ['\n']))
      = .raised .tooDeep := by
    rw [ofLine, if_neg (by simp [encodeAscii]), decode_encodeAscii hascii]
    simp only [loads_nested]
  have hlength : (encodeAscii (List.replicate (depth + 1) '[' ++ ['\n'])).length
      ≤ 16 * 1024 * 1024 + 1 := by
    rw [encodeAscii, List.length_map, List.length_append, List.length_replicate,
      List.length_singleton]
    omega
  obtain ⟨r, hr, hgot, hmem⟩ := line_answered T depth ⟨_, htext, hopen⟩ hlength
  exact ⟨r, hr, hgot, hline ▸ hmem⟩

end GgRelay.Ndjson
