import ArithAsm.Host.FileTree

/-! What reading a source brings. A path supplies the bytes that reading it to its
end would bring, if that has an end. Reading within a limit brings exactly those, or
finds that there are none within the limit, or has no result because one more than
the limit is no 64-bit number. -/
namespace ArithAsm

/-- Reading at the path brings the source and then ends. A device that is not without
end brings nothing. -/
def FileTree.Supplies (tree : FileTree) (path : Path) (source : Bytes) : Prop :=
  tree.openFile path = .ok (.file source) ∨
    source = [] ∧ ∃ device, tree.openFile path = .ok (.device device) ∧ device.endless = false

variable {tree : FileTree} {path : Path} {limit : UInt64}

theorem FileTree.Supplies.unique {source other : Bytes} (first : tree.Supplies path source)
    (second : tree.Supplies path other) : source = other := by
  rcases first with held | ⟨rfl, device, held, -⟩ <;> rcases second with again | ⟨rfl, rival, again, -⟩
  · exact Node.file.inj (Except.ok.inj (held.symm.trans again))
  · cases held.symm.trans again
  · cases held.symm.trans again
  · rfl

/-- A single read brings what is wanted of it. -/
theorem Reading.collect_data (wanted : Nat) (content : Bytes) :
    collect wanted [.data content] = .ok (content.take wanted) := by
  by_cases none : wanted = 0
  · simp [collect, none]
  · cases content with
    | nil => simp [collect, none]
    | cons first rest => simp [collect, none, Except.map]

theorem bytesWanted_cases (limit : UInt64) :
    bytesWanted limit = .ok (limit.toNat + 1) ∨
      UInt64.size ≤ limit.toNat + 1 ∧ bytesWanted limit = .error .limitOverflow := by
  unfold bytesWanted
  by_cases below : limit.toNat + 1 < UInt64.size
  · exact .inl (if_pos below)
  · exact .inr ⟨Nat.not_lt.mp below, if_neg below⟩

/-- Of a content within the limit nothing is cut off, and of any other one byte too
many is seen. -/
theorem readBounded_of_collect {readings : List Reading} {content : Bytes}
    (asked : bytesWanted limit = .ok (limit.toNat + 1))
    (collects : Reading.collect (limit.toNat + 1) readings = .ok (content.take (limit.toNat + 1))) :
    ∃ records result, readBounded readings path limit = .ok (records, result) ∧
      (content.length ≤ limit.toNat ∧ result = .ok content ∨
        limit.toNat < content.length ∧ ∃ error, result = .error error) := by
  simp only [readBounded, asked, Except.map, collects]
  by_cases small : content.length ≤ limit.toNat
  · have whole : content.take (limit.toNat + 1) = content := List.take_of_length_le (by omega)
    rw [whole, if_pos small]
    exact ⟨_, _, rfl, .inl ⟨small, rfl⟩⟩
  · have cut : ¬ (content.take (limit.toNat + 1)).length ≤ limit.toNat := by
      rw [List.length_take]
      omega
    rw [if_neg cut]
    exact ⟨_, _, rfl, .inr ⟨Nat.not_le.mp small, _, rfl⟩⟩

/-- Where there is no such number as one more than the limit, nothing is read. -/
theorem readSource_of_overflow {node : Node} (opened : tree.openFile path = .ok node)
    (overflows : bytesWanted limit = .error .limitOverflow) :
    readSource tree path limit = .error .limitOverflow := by
  unfold readSource
  rw [opened]
  simp only
  cases FileTree.readings? node with
  | none => simp only [overflows, Except.map]
  | some readings => simp only [readBounded, overflows, Except.map]

/-- What reading a node brings, if it has an end, is supplied by the path that leads
there. -/
theorem FileTree.supplies_of_collect {node : Node} {readings : List Reading}
    (opened : tree.openFile path = .ok node) (reads : readings? node = some readings) (wanted : Nat) :
    (∃ content, tree.Supplies path content ∧
      Reading.collect wanted readings = .ok (content.take wanted)) ∨
    node = .directory ∧ readings = [.failure .isDirectory] := by
  cases node with
  | directory => exact .inr ⟨rfl, (Option.some.inj reads).symm⟩
  | file content =>
    obtain rfl := Option.some.inj reads
    exact .inl ⟨content, .inl opened, Reading.collect_data wanted content⟩
  | device device =>
    cases endless : device.endless with
    | true => simp [readings?, endless] at reads
    | false =>
      simp only [readings?, endless, Bool.false_eq_true, ↓reduceIte, Option.some.injEq] at reads
      subst reads
      exact .inl ⟨[], .inr ⟨rfl, device, opened, endless⟩, by simp [Reading.collect]⟩

/-- What has been opened is read whole, or does not come to an end within the limit. -/
theorem readSource_of_open {node : Node} (opened : tree.openFile path = .ok node)
    (asked : bytesWanted limit = .ok (limit.toNat + 1)) :
    (∃ records source, readSource tree path limit = .ok (records, .ok source) ∧
      tree.Supplies path source ∧ source.length ≤ limit.toNat) ∨
    ∃ records error, readSource tree path limit = .ok (records, .error error) ∧
      ∀ source, tree.Supplies path source → limit.toNat < source.length := by
  unfold readSource
  rw [opened]
  simp only
  cases reads : FileTree.readings? node with
  | none =>
    refine .inr ⟨[], .sourceTooLarge path limit.toNat, by simp only [asked, Except.map], ?_⟩
    rintro source (held | ⟨-, device, held, ends⟩)
    · obtain rfl := Except.ok.inj (opened.symm.trans held)
      cases reads
    · obtain rfl := Except.ok.inj (opened.symm.trans held)
      simp [FileTree.readings?, ends] at reads
  | some readings =>
    rcases FileTree.supplies_of_collect opened reads (limit.toNat + 1) with
      ⟨content, supplies, collects⟩ | ⟨rfl, rfl⟩
    · obtain ⟨records, result, bounded, ⟨small, rfl⟩ | ⟨large, error, rfl⟩⟩ :=
        readBounded_of_collect asked collects
      · exact .inl ⟨records, content, bounded, supplies, small⟩
      · exact .inr ⟨records, error, bounded, fun source again => again.unique supplies ▸ large⟩
    · refine .inr ⟨[], .readSource path .isDirectory, ?_, ?_⟩
      · simp [readBounded, asked, Except.map, Reading.collect]
      · rintro source (held | ⟨-, device, held, -⟩) <;> cases opened.symm.trans held

/-- A source is read whole, or there is none within the limit, or the limit is the
largest 64-bit number and there is something to be read. -/
theorem readSource_cases (tree : FileTree) (path : Path) (limit : UInt64) :
    (∃ records source, readSource tree path limit = .ok (records, .ok source) ∧
      tree.Supplies path source ∧ source.length ≤ limit.toNat) ∨
    (∃ records error, readSource tree path limit = .ok (records, .error error) ∧
      ∀ source, tree.Supplies path source → limit.toNat < source.length) ∨
    (∃ node, tree.openFile path = .ok node) ∧ UInt64.size ≤ limit.toNat + 1 ∧
      readSource tree path limit = .error .limitOverflow := by
  cases opened : tree.openFile path with
  | error cause =>
    refine .inr (.inl ⟨[], .readSource path cause, by simp [readSource, opened], ?_⟩)
    rintro source (held | ⟨-, device, held, -⟩) <;> cases opened.symm.trans held
  | ok node =>
    rcases bytesWanted_cases limit with asked | ⟨large, overflows⟩
    · rcases readSource_of_open opened asked with whole | none
      · exact .inl whole
      · exact .inr (.inl none)
    · exact .inr (.inr ⟨⟨node, rfl⟩, large, readSource_of_overflow opened overflows⟩)

/-- Reading has no result exactly if there is something to be read and one more than the
limit is no 64-bit number. -/
theorem readSource_eq_overflow_iff : readSource tree path limit = .error .limitOverflow ↔
    (∃ node, tree.openFile path = .ok node) ∧ UInt64.size ≤ limit.toNat + 1 := by
  constructor
  · intro aborts
    rcases readSource_cases tree path limit with ⟨_, _, reads, -⟩ | ⟨_, _, fails, -⟩ | ⟨opened, large, -⟩
    · cases reads.symm.trans aborts
    · cases fails.symm.trans aborts
    · exact ⟨opened, large⟩
  · rintro ⟨⟨node, opened⟩, large⟩
    have overflows : bytesWanted limit = .error .limitOverflow := if_neg (Nat.not_lt.mpr large)
    exact readSource_of_overflow opened overflows

end ArithAsm
