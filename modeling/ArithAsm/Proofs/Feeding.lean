import ArithAsm.Proofs.Emission

/-! What feeding lines leaves in a sink: a copy holds exactly the lines that its
sink took, and a listing without a bound takes every line. -/
namespace ArithAsm

/-- The lines that were taken: all that were offered, but for a refused one at
the end. -/
def Feed.taken {σ : Type} (feed : Feed σ) : List Line :=
  if feed.refusal.isSome then feed.offered.dropLast else feed.offered

variable {σ : Type} {sink : Sink σ} {state : σ}

private theorem offered_ne_nil_of_refused {lines : List Line} {refusal : IoError}
    (refused : (sink.feed state lines).refusal = some refusal) :
    (sink.feed state lines).offered ≠ [] := by
  cases lines with
  | nil => simp [Sink.feed] at refused
  | cons line rest =>
    simp only [Sink.feed]
    split <;> simp

/-- Feeding through a copy feeds the sink the same way, and the copy gains what
the sink took. -/
theorem tee_feed (lines : List Line) (copy : Listing) :
    sink.tee.feed (state, copy) lines =
      ⟨((sink.feed state lines).state,
        ⟨copy.lines ++ ((sink.feed state lines).taken.map Line.text)⟩),
        (sink.feed state lines).offered, (sink.feed state lines).refusal⟩ := by
  induction lines generalizing state copy with
  | nil => simp [Sink.feed, Feed.taken]
  | cons line rest ih =>
    cases offer : sink.offer state line.text with
    | mk next answer =>
      cases answer with
      | some refusal => simp [Sink.feed, Sink.tee, offer, Feed.taken]
      | none =>
        have taken : (sink.feed state (line :: rest)).taken = line :: (sink.feed next rest).taken := by
          cases refused : (sink.feed next rest).refusal with
          | none => simp [Sink.feed, offer, Feed.taken, refused]
          | some refusal =>
            simp [Sink.feed, offer, Feed.taken, refused,
              List.dropLast_cons_of_ne_nil (offered_ne_nil_of_refused refused)]
        have passed : sink.tee.offer (state, copy) line.text = ((next, copy.push line.text), none) := by
          simp [Sink.tee, offer]
        rw [taken]
        simp only [Sink.feed, passed, offer, ih]
        simp [Listing.push]

/-- A listing takes every line. -/
theorem listing_feed (lines : List Line) (listing : Listing) :
    Listing.sink.feed listing lines =
      ⟨⟨listing.lines ++ lines.map Line.text⟩, lines, none⟩ := by
  induction lines generalizing listing with
  | nil => simp [Sink.feed]
  | cons line rest ih => simp [Sink.feed, Listing.sink, Listing.push] at ih ⊢; simp [ih]

/-- The bytes of a listing's text are those of its lines, each ended by a newline. -/
theorem Listing.encode_text (listing : Listing) :
    Utf8.encode listing.text =
      listing.lines.toList.flatMap fun line => Utf8.encode line ++ [Byte.newline] := by
  have newline : String.utf8EncodeChar '\n' = [Byte.newline] := by decide +kernel
  simp [Utf8.encode, Listing.text, String.toList_join, List.flatMap_map, List.flatMap_assoc, newline]

/-- Compiled into a listing, a program that can be read leaves its whole
assembly there, and its own lines are handed back. -/
theorem compile_to_listing {source : Bytes} {program : Program} (parsed : parse source = .ok program) :
    (compile Listing.sink .empty source).state.lines.toList = program.assembly.map Line.text ∧
      (compile Listing.sink .empty source).result = .ok ⟨(program.lines.map Line.text).toArray⟩ := by
  simp [compile, parsed, Program.emit, emitPrologue_eq_feed, emitProgram_eq_feed,
    emitEpilogue_eq_feed, listing_feed, tee_feed, Feed.taken, Program.assembly, Listing.empty]

end ArithAsm
