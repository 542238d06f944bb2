import DepSpec.CommandLine.Classify
import DepSpec.Proofs.Service.StreamedTexts
import DepSpec.Proofs.Specifier.Attribution
import DepSpec.Proofs.Specifier.NpmSafety

set_option autoImplicit false

/-! # The same line from the program and from a service

The program that classifies one specifier prints what a service with the npm rules and the same
envelope writes for it. The specifier reaches the service as bytes of a stream, where its line may
end with a carriage return; the answer is the same, as classification does not see the difference.
No classification with the npm rules breaks down (`Capabilities.npm_isInvalid`), so the program
always ends with exit code 0 and the service never stops on account of an answer. -/

namespace DepSpec

open Text

/-! ## No classification breaks down -/

/-- With the npm rules the input is at fault if classification fails. -/
theorem Capabilities.npm_isInvalid {raw : String} {e : ClassifyError}
    (h : npm.classify raw = .error e) : e.isInvalid = true := by
  rcases classify_eq_error_iff.1 h with hplan | ⟨text, hhands, hconstraint⟩
  · rcases npm_plan raw with ⟨plan, hok, -⟩ | ⟨refusal, herror, -⟩
    · rw [hok] at hplan
      cases hplan
    · rw [herror] at hplan
      cases hplan
      rfl
  -- A range text that is handed over can be parsed and sent.
  · exfalso
    obtain ⟨plan, hplan, htext⟩ := plan_leadsTo_iff.2 hhands
    rcases npm_plan raw with ⟨plan', hok, hreadable⟩ | ⟨refusal, herror, -⟩
    · rw [hplan] at hok
      cases hok
      obtain ⟨range, hparse⟩ := hreadable text htext
      obtain ⟨-, sent, hsent⟩ := npm_parseRange hparse
      rw [hsent] at hconstraint
      cases hconstraint
    · rw [hplan] at herror
      cases herror

theorem Service.npm_isFatal (settings : Settings) (frame : Frame) :
    isFatal { caps := .npm, settings := settings } frame = false := by
  cases frame with
  | tooLarge => rfl
  | request text =>
    rw [isFatal, outcome]
    cases h : Capabilities.npm.classify text with
    | ok spec => rfl
    | error e =>
      have hinvalid := Capabilities.npm_isInvalid h
      cases e with
      | invalid => rfl
      | unknownKind | unknownAliasKind | unrecognizedOperator => cases hinvalid

namespace CommandLine

theorem exitCode_npm (spec : String) : exitCode (Capabilities.npm.classify spec) = 0 := by
  cases h : Capabilities.npm.classify spec with
  | ok => rfl
  | error e => exact if_pos (Capabilities.npm_isInvalid h)

/-! ## The program -/

/-- The name of an envelope on the command line. -/
def envelopeName : Envelope → String
  | .result => "result"
  | .legacy => "legacy"

/-- Any specifier can be given to the program, with any envelope. -/
theorem read_commandLine (spec : String) (envelope : Envelope) :
    read ClassifyArguments.options ClassifyArguments.accept {}
        ["--envelope", envelopeName envelope, "--", spec] =
      .accepted { spec := some spec, envelope := some envelope } := by
  have hoption : Shape.ofChars "--envelope".toList = .long "envelope".toList none := by decide
  have hescape : Shape.ofChars "--".toList = .escape := by decide
  have hvalue : Shape.ofChars (envelopeName envelope).toList = .operand := by
    cases envelope <;> decide
  have haccept : ClassifyArguments.accept {} (.option "envelope" (envelopeName envelope)) =
      some { envelope := some envelope } := by
    cases envelope <;> rfl
  simp only [read, hoption, String.ofList_toList, ClassifyArguments.options, hvalue, haccept,
    hescape, readOperands]
  rw [if_pos (by decide), if_pos trivial]
  rfl

theorem classify_of_read {args : List String} {spec : String} {envelope : Option Envelope}
    (h : read ClassifyArguments.options ClassifyArguments.accept {} args =
      .accepted { spec := some spec, envelope := envelope }) :
    classify args = classifyOnce .npm (envelope.getD .result) spec := by
  unfold classify
  rw [h]

theorem classifyOnce_npm (envelope : Envelope) (spec : String) :
    classifyOnce .npm envelope spec =
      .exit 0 (Outcome.line (Capabilities.npm.classify spec) envelope) :=
  congrArg (fun code => Ending.exit code (Outcome.line (Capabilities.npm.classify spec) envelope))
    (exitCode_npm spec)

/-! ## The program and the service -/

/-- **The program prints what a service writes.** For every specifier without a line feed the
    program ends with exit code 0 and prints the line that a service with line framing, the same
    envelope and room for the specifier answers it with: in every state that the service can get
    into, on every connection and wherever the specifier stands in its stream, no other line is
    written in its place, and that line is written once the queue is answered, unless the connection
    was lost or the service shut it down. However the bytes are cut into reads, a server that serves
    them writes it. -/
theorem program_prints_what_service_writes {settings : Settings} {spec : String}
    (hframing : settings.framing = .newline) (hspec : '\n' ∉ spec.toList)
    (hlimit : byteLength spec.toList + 1 ≤ settings.maxRequestBytes.toNat) :
    let s : Service := { caps := .npm, settings := settings }
    let line := Outcome.line (Capabilities.npm.classify spec) settings.envelope
    (∃ args, read ClassifyArguments.options ClassifyArguments.accept {} args =
        .accepted { spec := some spec, envelope := some settings.envelope }) ∧
      (∀ args envelope, read ClassifyArguments.options ClassifyArguments.accept {} args =
          .accepted { spec := some spec, envelope := envelope } →
        envelope.getD .result = settings.envelope → classify args = .exit 0 line) ∧
      ∀ server : Server, server.Reachable s → ∀ before mustEnd,
        (∀ earlier ∈ before, lineFeed ∉ earlier) →
        (∀ i c, server.connections[i]? = some c →
          Frame.AsksFor spec before mustEnd c.reads.flatten →
          (∀ other, c.written[before.length]? = some other → other = line) ∧
            (server.isRunning = true → c.phase ≠ .closed .lost → c.phase ≠ .closed .shutdown →
              (mustEnd = true → c.phase ≠ .reading) →
              ∃ c', (server.run s
                  (List.replicate c.queue.length (.respond i true))).connections[i]? = some c' ∧
                c'.written[before.length]? = some line)) ∧
          (server.phase = .listening → ∀ reads : List (List UInt8), (∀ bytes ∈ reads, bytes ≠ []) →
            Frame.AsksFor spec before mustEnd reads.flatten →
            ∃ c, ((server.step s .accept).serveReads s true server.connections.length
                (reads ++ if mustEnd then [[]] else [])).connections[server.connections.length]? =
                  some c ∧
              c.written[before.length]? = some line) := by
  intro s line
  have hfatal := Service.npm_isFatal settings
  refine ⟨⟨_, read_commandLine spec settings.envelope⟩, ?_, ?_⟩
  · intro args envelope hread henvelope
    rw [classify_of_read hread, henvelope, classifyOnce_npm]
  · intro server hserver before mustEnd hbefore
    refine ⟨fun i c hc hasks => ?_, fun hlistening reads hreads hasks => ?_⟩
    · have hasks : Frame.AsksWithin s.maxBytes spec before mustEnd c.reads.flatten :=
        ⟨hasks, hspec, hbefore, hlimit⟩
      obtain ⟨ended, done, hserves⟩ := hserver.serves hc
      refine ⟨fun other hother => ?_, fun hrunning hlost hshutdown hends => ?_⟩
      · exact hserves.written_of_asks hframing hasks hother
      · obtain ⟨c', hc', -, hwritten, -⟩ := Server.getElem?_run_respond hrunning hc hfatal
        refine ⟨c', hc', ?_⟩
        rw [hwritten]
        exact hserves.line_of_asks hframing hfatal hasks hlost hshutdown hends
    · exact Server.written_serveReads hserver hlistening hframing hfatal hreads
        ⟨hasks, hspec, hbefore, hlimit⟩

/-- Settings with room for a specifier of four bytes, a carriage return not counted. -/
def narrowSettings : Settings := { maxRequestBytes := 5 }

/-- The program and a service that reads the specifier in two pieces, with a carriage return. -/
theorem caret_range_is_told_alike :
    let s : Service := { caps := .npm, settings := narrowSettings }
    let line := Outcome.line (Capabilities.npm.classify "^1.2") .result
    let server := Server.started .vacant 1 false {}
    let reads := [encodeText "^1".toList, encodeText ".2\r\n".toList]
    classify ["^1.2"] = .exit 0 line ∧
      ∃ c, ((server.step s .accept).serveReads s true 0 reads).connections[0]? = some c ∧
        c.written[0]? = some line := by
  intro s line server reads
  obtain ⟨-, hprogram, hservice⟩ := @program_prints_what_service_writes narrowSettings "^1.2" rfl
    (by decide) (by decide)
  have hread : read ClassifyArguments.options ClassifyArguments.accept {} ["^1.2"] =
      .accepted { spec := some "^1.2", envelope := none } := by decide
  have hserver : server.Reachable s := ⟨.vacant, 1, false, {}, [], rfl⟩
  have hasks : Frame.AsksFor "^1.2" [] false reads.flatten := by
    have hflatten : reads.flatten = ([] : List (List UInt8)).flatMap (· ++ [lineFeed]) ++
        (encodeText "^1.2".toList ++ carriageReturn :: lineFeed :: []) := by decide
    rw [hflatten]
    exact .returned false []
  obtain ⟨-, hwrites⟩ := hservice server hserver [] false nofun
  obtain ⟨c, hc, hwritten⟩ := hwrites rfl reads (by decide) hasks
  rw [if_neg Bool.false_ne_true, List.append_nil] at hc
  exact ⟨hprogram _ _ hread rfl, c, hc, hwritten⟩

end CommandLine

end DepSpec
