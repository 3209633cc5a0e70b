import JsonPath.Proofs.Parser.Soundness
import JsonPath.Proofs.Parser.Tape

/-!
# What a part of the parser notes

A part of the parser at work does what the part of the same name returns: with the same item it
leaves the tape at the same stream, with the same error it stops. What it notes on the way leads
from the one stream to the other, each entry being noted where the entries before it have led. An
end token is taken only as the last thing before an error.
-/

namespace JsonPath

namespace Stream

variable {s earlier mid later : Stream}

/-- One stream is what is left of another, after any number of tokens. -/
def Follows (later earlier : Stream) : Prop := ∃ ts, earlier = later.prepend ts

/-- One stream is what is left of another after at least one token. -/
def Past (later earlier : Stream) : Prop := ∃ ts, ts ≠ [] ∧ earlier = later.prepend ts

theorem Follows.refl (s : Stream) : s.Follows s := ⟨[], rfl⟩

theorem Follows.trans (h : later.Follows mid) (h' : mid.Follows earlier) :
    later.Follows earlier := by
  obtain ⟨ts, hts⟩ := h
  obtain ⟨us, hus⟩ := h'
  exact ⟨us ++ ts, prepend_trans hus hts⟩

theorem Past.follows (h : later.Past earlier) : later.Follows earlier := h.imp fun _ h => h.2

theorem Follows.past (h : later.Follows mid) (h' : mid.Past earlier) : later.Past earlier := by
  obtain ⟨ts, hts⟩ := h
  obtain ⟨us, hne, hus⟩ := h'
  exact ⟨us ++ ts, by simp [hne], prepend_trans hus hts⟩

theorem Past.of_follows (h : later.Past mid) (h' : mid.Follows earlier) : later.Past earlier := by
  obtain ⟨ts, hne, hts⟩ := h
  obtain ⟨us, hus⟩ := h'
  exact ⟨us ++ ts, by simp [hne], prepend_trans hus hts⟩

theorem advance_follows (s : Stream) : s.advance.Follows s := by
  obtain ⟨ahead, final, hfinal⟩ := s
  cases ahead with
  | nil => exact .refl _
  | cons t ts => exact ⟨[t], rfl⟩

/-- The next token is the first of the tokens ahead, the last end token included. -/
theorem exists_peek_cons (s : Stream) : ∃ rest, s.ahead ++ [s.final] = s.peek :: rest := by
  obtain ⟨ahead, final, hfinal⟩ := s
  cases ahead with
  | nil => exact ⟨[], rfl⟩
  | cons t ts => exact ⟨ts ++ [final], rfl⟩

theorem advance_past (h : s.peek.kind ≠ .endOfQuery) : s.advance.Past s :=
  ⟨[s.peek], by simp, (prepend_peek h).symm⟩

end Stream

namespace Parser

/-- The token that was taken, if one was. -/
def Entry.token? (entry : Entry) : Option Token :=
  match entry.act with
  | .took token => some token
  | _ => none

/-- The tokens that were taken. -/
def taken (log : List Entry) : List Token := log.filterMap Entry.token?

/-- What a note says of the parser's progress: a token is taken where it stands; a call of the
parser of expressions is past the beginning of each call around it; a pass through a loop is
complete past its beginning, which was at no end token. -/
def Entry.Progresses (entry : Entry) : Prop :=
  match entry.act with
  | .took token => token = entry.stream.peek
  | .entered around => ∀ begun ∈ around, entry.stream.Past begun
  | .passed _ since => entry.stream.Past since ∧ since.peek.kind ≠ .endOfQuery

/-- The notes between two streams. Only a token that is taken, and that is no end token, leads to
another stream. -/
inductive Leads : Stream → List Entry → Stream → Prop
  | nil {s : Stream} : Leads s [] s
  | took {s after : Stream} {log : List Entry} (hkind : s.peek.kind ≠ .endOfQuery)
      (h : Leads s.advance log after) : Leads s (⟨.took s.peek, s⟩ :: log) after
  | entered {s after : Stream} {log : List Entry} {around : List Stream}
      (haround : ∀ begun ∈ around, s.Past begun) (h : Leads s log after) :
      Leads s (⟨.entered around, s⟩ :: log) after
  | passed {s after since : Stream} {log : List Entry} {loop : Loop}
      (hsince : s.Past since ∧ since.peek.kind ≠ .endOfQuery) (h : Leads s log after) :
      Leads s (⟨.passed loop since, s⟩ :: log) after

/-- The notes up to an error: as before, and perhaps that an end token was taken. -/
inductive Halts : Stream → List Entry → Stream → Prop
  | leads {s after : Stream} {log : List Entry} (h : Leads s log after) : Halts s log after
  | atEnd {s after : Stream} {log : List Entry} (h : Leads s log after)
      (hkind : after.peek.kind = .endOfQuery) :
      Halts s (log ++ [⟨.took after.peek, after⟩]) after.advance

variable {s s' after since begun : Stream} {log log' : List Entry}

theorem Leads.append (h : Leads s log s') (h' : Leads s' log' after) :
    Leads s (log ++ log') after := by
  induction h with
  | nil => exact h'
  | took hkind _ ih => exact .took hkind (ih h')
  | entered haround _ ih => exact .entered haround (ih h')
  | passed hsince _ ih => exact .passed hsince (ih h')

theorem Leads.halts (h : Leads s log s') (h' : Halts s' log' after) :
    Halts s (log ++ log') after := by
  cases h' with
  | leads h' => exact .leads (h.append h')
  | atEnd h' hkind =>
    rw [← List.append_assoc]
    exact .atEnd (h.append h') hkind

/-- The tokens that were taken are the ones between the two streams. -/
theorem Leads.eq_prepend (h : Leads s log after) : s = after.prepend (taken log) := by
  induction h with
  | nil => rfl
  | took hkind _ ih => exact Stream.eq_prepend_peek_cons hkind ih
  | entered _ _ ih => exact ih
  | passed _ _ ih => exact ih

theorem Leads.kind_ne (h : Leads s log after) : ∀ token ∈ taken log, token.kind ≠ .endOfQuery := by
  induction h with
  | nil => exact nofun
  | took hkind _ ih => exact List.forall_mem_cons.mpr ⟨hkind, ih⟩
  | entered _ _ ih => exact ih
  | passed _ _ ih => exact ih

theorem Leads.follows (h : Leads s log after) : after.Follows s := ⟨_, h.eq_prepend⟩

/-- Where a token was taken, there was no end token. -/
theorem Leads.past (h : Leads s log after) (hlt : after.size < s.size) :
    after.Past s ∧ s.peek.kind ≠ .endOfQuery := by
  have hs := h.eq_prepend
  have hkind := h.kind_ne
  cases htaken : taken log with
  | nil =>
    rw [htaken] at hs
    exact absurd hlt (by simp [hs])
  | cons token tokens =>
    rw [htaken] at hs hkind
    refine ⟨⟨_, List.cons_ne_nil _ _, hs⟩, ?_⟩
    rw [hs]
    exact hkind _ List.mem_cons_self

theorem Leads.progresses (h : Leads s log after) : ∀ entry ∈ log, entry.Progresses := by
  induction h with
  | nil => exact nofun
  | took _ _ ih => exact List.forall_mem_cons.mpr ⟨rfl, ih⟩
  | entered haround _ ih => exact List.forall_mem_cons.mpr ⟨haround, ih⟩
  | passed hsince _ ih => exact List.forall_mem_cons.mpr ⟨hsince, ih⟩

theorem Halts.progresses (h : Halts s log after) : ∀ entry ∈ log, entry.Progresses := by
  cases h with
  | leads h => exact h.progresses
  | atEnd h _ =>
    exact List.forall_mem_append.mpr ⟨h.progresses, List.forall_mem_singleton.mpr rfl⟩

/-- Each of the streams is what is left of any stream before it. -/
def Forward (streams : List Stream) : Prop :=
  streams.Pairwise fun earlier later => later.Follows earlier

theorem Forward.cons {streams : List Stream} (h : Forward (s' :: streams)) (hs : s'.Follows s) :
    Forward (s :: s' :: streams) :=
  List.pairwise_cons.mpr ⟨List.forall_mem_cons.mpr ⟨hs, fun _ hlater =>
    (List.rel_of_pairwise_cons h hlater).trans hs⟩, h⟩

theorem Forward.concat {streams : List Stream} (h : Forward (streams ++ [s]))
    (hs : s'.Follows s) : Forward (streams ++ [s] ++ [s']) := by
  refine List.pairwise_append.mpr
    ⟨h, List.pairwise_singleton _ _, fun earlier hmem later hlater => ?_⟩
  rw [List.mem_singleton.mp hlater]
  rcases List.mem_append.mp hmem with hmem | hmem
  · exact hs.trans ((List.pairwise_append.mp h).2.2 earlier hmem s (List.mem_singleton_self s))
  · rwa [List.mem_singleton.mp hmem]

theorem Leads.forward (h : Leads s log after) :
    Forward (s :: (log.map Entry.stream ++ [after])) := by
  induction h with
  | @nil s => exact Forward.cons (List.pairwise_singleton _ s) (.refl s)
  | @took s after log _ _ ih =>
    have hs : Forward (s :: (log.map Entry.stream ++ [after])) :=
      (ih.cons (Stream.advance_follows s)).sublist ((List.sublist_cons_self _ _).cons_cons s)
    exact hs.cons (.refl s)
  | entered _ _ ih => exact ih.cons (.refl _)
  | passed _ _ ih => exact ih.cons (.refl _)

theorem Halts.forward (h : Halts s log after) :
    Forward (s :: (log.map Entry.stream ++ [after])) := by
  cases h with
  | leads h => exact h.forward
  | @atEnd mid log h _ =>
    have hafter : Forward (s :: log.map Entry.stream ++ [mid] ++ [mid.advance]) :=
      Forward.concat h.forward (Stream.advance_follows mid)
    simpa using hafter

namespace Reading

variable {α β : Type} {bound bound' : Nat} {reading : Reading α} {next : α → Reading β}
  {tape : Tape} {a : α} {error : CompileError}

/-- A reading of a tape ends with an error, having noted what leads there. -/
def Stops (reading : Reading α) (tape : Tape) (error : CompileError) : Prop :=
  ∃ log after calls, Halts tape.stream log after ∧
    reading.outcome tape = some (.error error, ⟨after, calls, tape.log ++ log⟩)

/-- A reading of a tape ends with the result of a part of the parser: with an item at the stream
that is its rest, with the same calls open, having noted what leads there, or with its error. -/
def Yields (reading : Reading α) (tape : Tape) : Except CompileError (Parsed bound α) → Prop
  | .ok parsed => ∃ log, Leads tape.stream log parsed.rest ∧
      reading.outcome tape = some (.ok parsed.item, ⟨parsed.rest, tape.calls, tape.log ++ log⟩)
  | .error error => reading.Stops tape error

/-- A reading from a stream on does what a part of the parser returns, within any calls that began
before it. -/
def Does (reading : Reading α) (s : Stream) (result : Except CompileError (Parsed bound α)) :
    Prop :=
  ∀ calls log, (∀ begun ∈ calls, s.Past begun) → reading.Yields ⟨s, calls, log⟩ result

/-- The same, also within a call that begins at the stream. -/
def Opens (reading : Reading α) (s : Stream) (result : Except CompileError (Parsed bound α)) :
    Prop :=
  ∀ calls log, (∀ begun ∈ calls, s.Follows begun) → reading.Yields ⟨s, calls, log⟩ result

/-! ### How the steps compose -/

variable {result : Except CompileError (Parsed bound β)} {calls : List Stream}

theorem Stops.bind (h : reading.Stops tape error) : (reading >>= next).Stops tape error := by
  obtain ⟨log, after, calls, hlog, hrun⟩ := h
  exact ⟨log, after, calls, hlog, outcome_bind_error hrun⟩

/-- A step that leaves the open calls as they are, and then the rest of a reading. -/
theorem Yields.step {acts : List Entry} (hacts : Leads s acts s')
    (hstep : reading.outcome ⟨s, calls, log⟩ = some (.ok a, ⟨s', calls, log ++ acts⟩))
    (h : (next a).Yields ⟨s', calls, log ++ acts⟩ result) :
    (reading >>= next).Yields ⟨s, calls, log⟩ result := by
  cases result with
  | ok parsed =>
    obtain ⟨more, hmore, hrun⟩ := h
    refine ⟨acts ++ more, hacts.append hmore, ?_⟩
    rw [outcome_bind_ok hstep, hrun, List.append_assoc]
  | error error =>
    obtain ⟨more, after, calls', hmore, hrun⟩ := h
    refine ⟨acts ++ more, after, calls', hacts.halts hmore, ?_⟩
    rw [outcome_bind_ok hstep, hrun, List.append_assoc]

theorem Does.step {acts : List Entry} (hacts : Leads s acts s')
    (hstep : ∀ calls log,
      reading.outcome ⟨s, calls, log⟩ = some (.ok a, ⟨s', calls, log ++ acts⟩))
    (h : (next a).Does s' result) : (reading >>= next).Does s result :=
  fun _ _ hcalls => .step hacts (hstep _ _)
    (h _ _ fun begun hbegun => hacts.follows.past (hcalls begun hbegun))

/-- A step that notes nothing and leaves the stream as it is. -/
theorem Does.idle (hstep : ∀ tape, tape.stream = s → reading.outcome tape = some (.ok a, tape))
    (h : (next a).Does s result) : (reading >>= next).Does s result :=
  .step .nil (fun _ _ => by rw [List.append_nil, hstep _ rfl]) h

theorem does_pure {hlt : s.size < bound} : (pure a : Reading α).Does s (.ok ⟨a, s, hlt⟩) :=
  fun _ _ _ => ⟨[], .nil, by rw [List.append_nil]; rfl⟩

theorem stops_check : (check (.error error) : Reading α).Stops tape error :=
  ⟨[], tape.stream, tape.calls, .leads .nil, by rw [List.append_nil]; rfl⟩

theorem does_error :
    (check (.error error) : Reading α).Does s (.error error : Except _ (Parsed bound α)) :=
  fun _ _ _ => stops_check

theorem Does.stream {next : Stream → Reading β} (h : (next s).Does s result) :
    (stream >>= next).Does s result :=
  .idle (by rintro tape rfl; rfl) h

theorem Does.peek {next : Token → Reading β} (h : (next s.peek).Does s result) :
    (peek >>= next).Does s result :=
  .idle (by rintro tape rfl; rfl) h

theorem Does.take {next : Token → Reading β} (hkind : s.peek.kind ≠ .endOfQuery)
    (h : (next s.peek).Does s.advance result) : (take >>= next).Does s result :=
  .step (.took hkind .nil) (fun _ _ => rfl) h

theorem Does.passed {next : Unit → Reading β} {loop : Loop}
    (hsince : s.Past since ∧ since.peek.kind ≠ .endOfQuery) (h : (next ()).Does s result) :
    (note (.passed loop since) >>= next).Does s result :=
  .step (.passed hsince .nil) (fun _ _ => rfl) h

theorem Does.check {γ : Type} {checked : Except CompileError γ} {next : γ → Reading β}
    {rest : γ → Except CompileError (Parsed bound β)} (h : ∀ c, (next c).Does s (rest c)) :
    (check checked >>= next).Does s (checked >>= rest) := by
  cases checked with
  | ok c => exact .idle (fun _ _ => rfl) (h c)
  | error error => exact fun _ _ _ => stops_check.bind

theorem Does.expect {next : Unit → Reading β} {kind : TokenKind} (hkind : s.peek.kind = kind)
    (h : (next ()).Does s result) : (expect kind >>= next).Does s result := by
  rw [Reading.expect, bind_assoc]
  refine .stream ?_
  rw [Stream.expect_eq_ok_iff.mpr hkind]
  exact .idle (fun _ _ => rfl) h

theorem does_mismatch {next : Unit → Reading β} {kind : TokenKind} (hkind : s.peek.kind ≠ kind) :
    (expect kind >>= next).Does s
      (.error (.query (s.mismatch kind)) : Except _ (Parsed bound β)) := by
  rw [Reading.expect, bind_assoc]
  refine .stream ?_
  rw [Stream.expect, if_neg hkind]
  exact fun _ _ _ => stops_check.bind

theorem Does.expectNot {next : Unit → Reading β} {kind : TokenKind} {fault : QueryFault}
    {rest : Unit → Except CompileError (Parsed bound β)} (h : (next ()).Does s (rest ())) :
    (expectNot kind fault >>= next).Does s (require (s.expectNot kind fault) >>= rest) := by
  rw [Reading.expectNot, bind_assoc]
  exact .stream (.check fun _ => h)

/-- A pass that ends with a comma, and the next one. -/
theorem Does.comma {next : Reading β} {rest : Except CompileError (Parsed bound β)} {loop : Loop}
    {closing : TokenKind} {fault : QueryFault}
    (hsince : s.Past since ∧ since.peek.kind ≠ .endOfQuery) (hcomma : s.peek.kind = .comma)
    (h : next.Does s.advance rest) :
    Does (do
      Reading.expect .comma
      let _ ← Reading.take
      Reading.expectNot closing fault
      note (.passed loop since)
      next) s (require (s.advance.expectNot closing fault) >>= fun _ => rest) := by
  refine .expect hcomma ?_
  refine .take (by simp [hcomma]) (.expectNot ?_)
  exact .passed ⟨(Stream.advance_follows s).past hsince.1, hsince.2⟩ h

/-- One reading after another does what the parts of the parser do one after the other. -/
theorem Does.bind {first : Except CompileError (Parsed bound' α)}
    {rest : Parsed bound' α → Except CompileError (Parsed bound β)} (h : reading.Does s first)
    (hrest : ∀ parsed log, Leads s log parsed.rest →
      (next parsed.item).Does parsed.rest (rest parsed)) :
    (reading >>= next).Does s (first >>= rest) := by
  intro calls log hcalls
  have hfirst := h calls log hcalls
  cases first with
  | error error => exact Stops.bind hfirst
  | ok parsed =>
    obtain ⟨acts, hacts, hrun⟩ := hfirst
    exact .step hacts hrun
      (hrest parsed acts hacts _ _ fun begun hbegun => hacts.follows.past (hcalls begun hbegun))

/-- The last part of a reading, whose bound is widened. -/
theorem Does.last {result : Except CompileError (Parsed bound' α)}
    {rest : Parsed bound' α → Except CompileError (Parsed bound α)} (h : reading.Does s result)
    (hrest : ∀ parsed, ∃ hlt, rest parsed = .ok ⟨parsed.item, parsed.rest, hlt⟩) :
    reading.Does s (result >>= rest) := by
  rw [← bind_pure reading]
  refine h.bind fun parsed _ _ => ?_
  obtain ⟨_, hparsed⟩ := hrest parsed
  rw [hparsed]
  exact does_pure

/-! ### Calls of the parser of expressions -/

theorem Opens.take {next : Token → Reading β} (hkind : s.peek.kind ≠ .endOfQuery)
    (h : (next s.peek).Does s.advance result) : (take >>= next).Opens s result :=
  fun _ _ hcalls => .step (.took hkind .nil) rfl
    (h _ _ fun begun hbegun => (Stream.advance_past hkind).of_follows (hcalls begun hbegun))

/-- An end token is taken only to report it. -/
theorem opens_end {next : Token → Reading β} (hkind : s.peek.kind = .endOfQuery)
    (h : next s.peek = check (.error error)) :
    (take >>= next).Opens s (.error error : Except _ (Parsed bound β)) := by
  intro calls log _
  have htake : Reading.take.outcome ⟨s, calls, log⟩ =
      some (.ok s.peek, ⟨s.advance, calls, log ++ [⟨.took s.peek, s⟩]⟩) := rfl
  refine ⟨_, _, calls, .atEnd .nil hkind, ?_⟩
  rw [outcome_bind_ok htake, h]
  rfl

theorem Opens.peek {next : Token → Reading β} (h : (next s.peek).Opens s result) :
    (peek >>= next).Opens s result :=
  fun _ _ hcalls => h _ _ hcalls

theorem Opens.bind {first : Except CompileError (Parsed s.size α)}
    {rest : Parsed s.size α → Except CompileError (Parsed bound β)} (h : reading.Opens s first)
    (hrest : ∀ parsed, (next parsed.item).Does parsed.rest (rest parsed)) :
    (reading >>= next).Opens s (first >>= rest) := by
  intro calls log hcalls
  have hfirst := h calls log hcalls
  cases first with
  | error error => exact Stops.bind hfirst
  | ok parsed =>
    obtain ⟨acts, hacts, hrun⟩ := hfirst
    have hpast := (hacts.past parsed.shorter).1
    exact .step hacts hrun
      (hrest parsed _ _ fun begun hbegun => hpast.of_follows (hcalls begun hbegun))

/-- A call is entered past the calls around it, and left with the same calls open. -/
theorem Opens.enclosed {result : Except CompileError (Parsed bound α)}
    (h : reading.Opens s result) : (enclosed reading).Does s result := by
  intro calls log hcalls
  unfold Reading.enclosed
  have hcalls' : ∀ begun ∈ s :: calls, s.Follows begun :=
    List.forall_mem_cons.mpr ⟨.refl s, fun begun hbegun => (hcalls begun hbegun).follows⟩
  have hbody := h (s :: calls) (log ++ [⟨.entered calls, s⟩]) hcalls'
  have henter : enter.outcome ⟨s, calls, log⟩ =
      some (.ok (), ⟨s, s :: calls, log ++ [⟨.entered calls, s⟩]⟩) := rfl
  cases result with
  | ok parsed =>
    obtain ⟨acts, hacts, hrun⟩ := hbody
    refine ⟨⟨.entered calls, s⟩ :: acts, .entered hcalls hacts, ?_⟩
    rw [outcome_bind_ok henter, outcome_bind_ok hrun, List.append_assoc]
    rfl
  | error error =>
    obtain ⟨acts, after, calls', hacts, hrun⟩ := hbody
    refine ⟨⟨.entered calls, s⟩ :: acts, after, calls',
      Leads.halts (.entered hcalls .nil) hacts, ?_⟩
    rw [outcome_bind_ok henter, outcome_bind_error hrun, List.append_assoc]
    rfl

end Reading

end Parser

end JsonPath
