import ArithAsm.Command.Output
import ArithAsm.Proofs.Feeding
import ArithAsm.Proofs.FileEffects

/-! What writing through a buffer leaves in a file. The content of a writer is what it has stored
and what waits behind that. Putting out what waits does not change the content, whether all of it
can be stored or not, and every write adds its bytes to the content or the front of them and is
refused. So the file holds the front of what was written in any case, and all of it when nothing
was refused. -/
namespace ArithAsm

namespace BufferedWriter

/-- What the file is to hold: what is stored, and what waits. -/
def content (writer : BufferedWriter) : Bytes :=
  writer.stored.toList ++ writer.pending.toList

/-- The bytes have been added to the content, or the front of them and there was a refusal. -/
structure Adds (writer : BufferedWriter) (bytes : Bytes) (outcome : BufferedWriter × Option IoError) :
    Prop where
  front : outcome.1.content <+: writer.content ++ bytes
  whole : outcome.2 = none → outcome.1.content = writer.content ++ bytes

variable {medium : Medium} {writer : BufferedWriter} {bytes more : Bytes}
  {outcome : BufferedWriter × Option IoError}

theorem Adds.of_content (added : outcome.1.content = writer.content ++ bytes) :
    writer.Adds bytes outcome :=
  ⟨added ▸ List.prefix_rfl, fun _ => added⟩

/-- What has been added up to a refusal is the front of more as well. -/
theorem Adds.append_of_refused (adds : writer.Adds bytes outcome) {cause : IoError}
    (refused : outcome.2 = some cause) (more : Bytes) : writer.Adds (bytes ++ more) outcome := by
  refine ⟨?_, fun unrefused => nomatch refused.symm.trans unrefused⟩
  rw [← List.append_assoc]
  exact adds.front.trans (List.prefix_append _ _)

theorem Adds.append (adds : writer.Adds bytes outcome) (unrefused : outcome.2 = none)
    {last : BufferedWriter × Option IoError} (later : outcome.1.Adds more last) :
    writer.Adds (bytes ++ more) last := by
  obtain ⟨front, whole⟩ := later
  rw [adds.whole unrefused, List.append_assoc] at front whole
  exact ⟨front, whole⟩

/-! ## Single writes -/

/-- What has been stored no longer waits, and what could not be stored still does. -/
theorem content_flush (medium : Medium) (writer : BufferedWriter) :
    (writer.flush medium).1.content = writer.content := by
  unfold flush
  split
  · rfl
  · simp only
    split <;> simp [content]

/-- Nothing waits after a flush that is not refused. -/
theorem pending_of_flush (unrefused : (writer.flush medium).2 = none) :
    (writer.flush medium).1.pending = #[] := by
  unfold flush at unrefused ⊢
  split
  · rename_i idle
    exact Array.isEmpty_iff.mp idle
  · rename_i waits
    simp only [if_neg waits] at unrefused ⊢
    split at unrefused
    · rfl
    · cases unrefused

theorem content_makeRoom (medium : Medium) (writer : BufferedWriter) (size : Nat) :
    (writer.makeRoom medium size).1.content = writer.content := by
  unfold makeRoom
  split
  · exact content_flush medium writer
  · rfl

/-- There is only room for so many bytes when nothing waits. -/
theorem pending_of_makeRoom {size : Nat} (many : capacity ≤ size)
    (unrefused : (writer.makeRoom medium size).2 = none) :
    (writer.makeRoom medium size).1.pending = #[] := by
  unfold makeRoom at unrefused ⊢
  split
  · rename_i full
    rw [if_pos full] at unrefused
    exact pending_of_flush unrefused
  · rename_i fits
    have positive : 0 < capacity := by decide
    have none : writer.pending.size = 0 := by omega
    exact Array.eq_empty_of_size_eq_zero none

theorem adds_hold (writer : BufferedWriter) (bytes : Bytes) :
    writer.Adds bytes (writer.hold bytes, none) :=
  .of_content (by simp [hold, content])

/-- Bytes go past the buffer when nothing waits in it. -/
theorem adds_putThrough (idle : writer.pending = #[]) (bytes : Bytes) :
    writer.Adds bytes (writer.putThrough medium bytes) := by
  unfold putThrough
  split
  · exact .of_content (by simp [content, idle])
  · exact ⟨by simp [content, idle, List.take_prefix], nofun⟩

theorem adds_write (medium : Medium) (writer : BufferedWriter) (bytes : Bytes) :
    writer.Adds bytes (writer.write medium bytes) := by
  have kept := content_makeRoom medium writer bytes.length
  have idle (many : capacity ≤ bytes.length)
      (unrefused : (writer.makeRoom medium bytes.length).2 = none) :
      (writer.makeRoom medium bytes.length).1.pending = #[] := pending_of_makeRoom many unrefused
  unfold write
  cases room : writer.makeRoom medium bytes.length with
  | mk next refusal =>
    rw [room] at kept idle
    have same : writer.Adds [] (next, refusal) := .of_content (by simp [kept])
    cases refusal with
    | some cause => exact same.append_of_refused rfl bytes
    | none =>
      simp only
      split
      · exact same.append rfl (next.adds_hold bytes)
      · rename_i many
        exact same.append rfl (adds_putThrough (idle (Nat.not_lt.mp many) rfl) bytes)

/-! ## Lines -/

/-- A line adds its bytes and a newline. -/
theorem adds_offer (medium : Medium) (writer : BufferedWriter) (line : String) :
    writer.Adds (Utf8.encode line ++ [Byte.newline]) ((sink medium).offer writer line) := by
  have adds := adds_write medium writer (Utf8.encode line)
  unfold sink Sink.ofWriter
  simp only
  cases written : writer.write medium (Utf8.encode line) with
  | mk next refusal =>
    rw [written] at adds
    cases refusal with
    | some cause => exact adds.append_of_refused rfl _
    | none => exact adds.append rfl (adds_write medium next [Byte.newline])

/-- Lines that are fed add their bytes, each with a newline. -/
theorem adds_feed (medium : Medium) (writer : BufferedWriter) (lines : List Line) :
    writer.Adds (lines.flatMap fun line => Utf8.encode line.text ++ [Byte.newline])
      (((sink medium).feed writer lines).state, ((sink medium).feed writer lines).refusal) := by
  induction lines generalizing writer with
  | nil => exact .of_content (by simp [Sink.feed])
  | cons line rest ih =>
    have adds := adds_offer medium writer line.text
    rw [List.flatMap_cons]
    unfold Sink.feed
    cases offered : (sink medium).offer writer line.text with
    | mk next refusal =>
      rw [offered] at adds
      cases refusal with
      | some cause => exact adds.append_of_refused rfl _
      | none => exact adds.append rfl (ih next)

/-- What a file holds in the end is the front of its content, and all of it if nothing waits. -/
theorem close_front (medium : Medium) (writer : BufferedWriter) :
    writer.close medium <+: writer.content := by
  rw [← content_flush medium writer]
  exact List.prefix_append _ _

theorem close_of_idle (idle : writer.pending = #[]) : writer.close medium = writer.content := by
  simp [close, flush, content, idle]

/-! ## Media that take everything -/

section
variable (takes : ∀ trip bytes, medium trip bytes = none)
include takes

theorem flush_unrefused (writer : BufferedWriter) : (writer.flush medium).2 = none := by
  unfold flush
  split
  · rfl
  · simp only [takes]

theorem write_unrefused (writer : BufferedWriter) (bytes : Bytes) :
    (writer.write medium bytes).2 = none := by
  have room : (writer.makeRoom medium bytes.length).2 = none := by
    unfold makeRoom
    split
    · exact flush_unrefused takes writer
    · rfl
  unfold write
  split
  · rename_i made
    rw [made] at room
    cases room
  · split
    · rfl
    · simp only [putThrough, takes]

theorem offer_unrefused (writer : BufferedWriter) (line : String) :
    ((sink medium).offer writer line).2 = none := by
  have written := write_unrefused takes writer (Utf8.encode line)
  unfold sink Sink.ofWriter
  simp only
  split
  · exact write_unrefused takes _ _
  · rename_i refused
    rw [refused] at written
    cases written

theorem feed_unrefused (writer : BufferedWriter) (lines : List Line) :
    ((sink medium).feed writer lines).refusal = none := by
  induction lines generalizing writer with
  | nil => rfl
  | cons line rest ih =>
    have offered := offer_unrefused takes writer line.text
    unfold Sink.feed
    split
    · exact ih _
    · rename_i refused
      rw [refused] at offered
      cases offered

end

end BufferedWriter

/-! ## Whole listings -/

namespace Listing
open BufferedWriter

variable {medium : Medium} {listing : Listing}

/-- The file holds the front of the listing's text, and the whole of it when nothing was
refused. -/
theorem writeOut_cases (listing : Listing) (medium : Medium) :
    (listing.writeOut medium).1 <+: Utf8.encode listing.text ∧
      ((listing.writeOut medium).2 = none →
        (listing.writeOut medium).1 = Utf8.encode listing.text) := by
  have adds := adds_feed medium .empty (listing.lines.toList.map .fixed)
  rw [List.flatMap_map] at adds
  simp only [Line.text, ← listing.encode_text] at adds
  have blank : BufferedWriter.empty.content = [] := rfl
  obtain ⟨front, whole⟩ := adds
  rw [blank, List.nil_append] at front whole
  unfold writeOut
  simp only
  split
  · exact ⟨(close_front _ _).trans front, nofun⟩
  · rename_i unrefused
    have kept := content_flush medium ((BufferedWriter.sink medium).feed .empty (listing.lines.toList.map .fixed)).state
    rw [whole unrefused] at kept
    exact ⟨kept ▸ close_front _ _, fun flushed => (close_of_idle (pending_of_flush flushed)).trans kept⟩

theorem writeOut_unrefused (takes : ∀ trip bytes, medium trip bytes = none) (listing : Listing) :
    (listing.writeOut medium).2 = none := by
  unfold writeOut
  simp only [feed_unrefused takes, flush_unrefused takes]

end Listing

namespace Host
variable {host : Host} {path : Path} {listing : Listing}

/-- Writing a listing changes nothing but the file at the path. -/
theorem keepsBut_writeListing (host : Host) (path : Path) (listing : Listing) :
    FileTree.KeepsBut [path] host.tree (host.writeListing path listing).1 := by
  unfold writeListing
  split
  · exact .refl _ _
  · rename_i creates
    exact FileTree.keepsBut_of_create_store creates _

/-- A listing that has been written stands in its file, unless a device took it. -/
theorem lookUp_of_writeListing (written : (host.writeListing path listing).2 = none) :
    (host.writeListing path listing).1.lookUp path = .ok (.file (Utf8.encode listing.text)) ∨
      (host.writeListing path listing).1 = host.tree ∧
        ∃ device, host.tree.lookUp path = .ok (.device device) := by
  unfold writeListing at written ⊢
  split at written
  · cases written
  · rename_i created place creates
    simp only
    rw [← (listing.writeOut_cases _).2 written]
    exact FileTree.lookUp_of_create_store creates _

/-- Where no file can be created nothing is written. -/
theorem writeListing_of_error {cause : IoError} (fails : host.tree.create path = .error cause)
    (listing : Listing) : host.writeListing path listing = (host.tree, some cause) := by
  simp only [writeListing, fails]

theorem tree_of_writeListing {created : FileTree} {place : Place}
    (creates : host.tree.create path = .ok (created, place)) (listing : Listing) :
    (host.writeListing path listing).1 =
      created.store place (listing.writeOut (host.mediumAt created place)).1 := by
  simp only [writeListing, creates]

/-- A file that has been created holds the front of the text, however the writing goes. -/
theorem lookUp_of_create {created : FileTree} {place : Place}
    (creates : host.tree.create path = .ok (created, place)) :
    (∃ content, content <+: Utf8.encode listing.text ∧
      (host.writeListing path listing).1.lookUp path = .ok (.file content)) ∨
      (host.writeListing path listing).1 = host.tree ∧
        ∃ device, host.tree.lookUp path = .ok (.device device) := by
  rw [tree_of_writeListing creates]
  rcases FileTree.lookUp_of_create_store creates
    (listing.writeOut (host.mediumAt created place)).1 with held | device
  · exact .inl ⟨_, (listing.writeOut_cases _).1, held⟩
  · exact .inr device

/-- A file that can be created, and of which every write is taken, is written. -/
theorem writeListing_unrefused {created : FileTree} {place : Place}
    (creates : host.tree.create path = .ok (created, place))
    (takes : ∀ trip bytes, host.mediumAt created place trip bytes = none) :
    (host.writeListing path listing).2 = none := by
  simp only [writeListing, creates, listing.writeOut_unrefused takes]

/-- A device with room takes a listing and nothing changes. -/
theorem writeListing_device {created : FileTree} {place : Place} {device : Device}
    (creates : host.tree.create path = .ok (created, place))
    (held : created.node? place = some (.device device)) (roomy : device.roomy = true) :
    host.writeListing path listing = (created, none) := by
  have takes (trip : Nat) (bytes : Bytes) : host.mediumAt created place trip bytes = none := by
    simp [mediumAt, held, Device.medium, roomy]
  refine Prod.ext ?_ (writeListing_unrefused creates takes)
  simp only [tree_of_writeListing creates, FileTree.store, held]

end Host
end ArithAsm
