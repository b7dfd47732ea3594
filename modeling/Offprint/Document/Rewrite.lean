import Mathlib.Algebra.GroupWithZero.Nat
import Mathlib.Data.List.Pairwise
import Mathlib.Data.List.Sort
import Offprint.Data.Text
import Offprint.Effect.Checked
import Offprint.Model.Error

/-!
# Rewriting ranges of a text

The changes are sorted by where they start, checked one after the other and then
spliced in.  The checks keep every later slice of the source on character
boundaries, so that the splicing loop never panics.
-/

namespace Offprint.Document

open Data Text List Effect Model Text
open Offprint.Data.Utf8 (encode)
open Offprint.Effect.Checked (of_bind failIf)

def resourceError (code message : String) : OffprintError :=
  .new code .resource message

structure ByteRange where
  start : Nat
  stop : Nat
  deriving Repr, DecidableEq

namespace ByteRange

def length (range : ByteRange) : Nat :=
  range.stop - range.start

def contains (range : ByteRange) (offset : Nat) : Bool :=
  range.start ≤ offset && offset < range.stop

end ByteRange

/-- A range of the source and what takes its place. -/
abbrev Change : Type := ByteRange × List Char

def startsFirst (first second : Change) : Prop :=
  first.1.start ≤ second.1.start

instance : DecidableRel startsFirst :=
  fun first second => inferInstanceAs (Decidable (first.1.start ≤ second.1.start))

instance : Std.Total startsFirst where
  total first second := Nat.le_total first.1.start second.1.start

instance : IsTrans Change startsFirst where
  trans _ _ _ early late := Nat.le_trans early late

def usizeMax : Nat := 2 ^ 64 - 1

/-- The largest buffer that can be allocated. -/
def isizeMax : Nat := 2 ^ 63 - 1

/-- Check the changes from some point on and keep count of the bytes of the result. -/
def measureChanges (source : List Char) (finish bytes : Nat) :
    List Change → Checked OffprintError Nat
  | [] => .ok bytes
  | (range, replacement) :: rest => do
      failIf (range.start < finish ∨ range.start > range.stop ∨
          (slice source range.start range.stop).isNone = true)
        (resourceError "offprint.resource.rewrite"
          "resource rewrite ranges overlap or are outside their source text")
      let bytes' := bytes - range.length + size replacement
      failIf (bytes < range.length ∨ bytes' > usizeMax)
        (resourceError "offprint.resource.rewrite" "resource rewrite size overflow")
      measureChanges source range.stop bytes' rest

/-- A slice that has to lie between characters of the text. -/
def index (source : List Char) (start stop : Nat) : Checked OffprintError (List Char) :=
  .ofOption (slice source start stop)

def spliceChanges (source : List Char) (finish : Nat) :
    List Change → Checked OffprintError (List Char)
  | [] => index source finish (size source)
  | (range, replacement) :: rest => do
      let kept ← index source finish range.start
      let rewritten ← spliceChanges source range.stop rest
      return kept ++ replacement ++ rewritten

def rewriteRanges (source : List Char) (changes : List Change) :
    Checked OffprintError (List Char) := do
  let sorted := changes.insertionSort startsFirst
  let bytes ← measureChanges source 0 (size source) sorted
  failIf (bytes > isizeMax)
    (resourceError "offprint.resource.rewrite" "resource rewrite allocation failed")
  spliceChanges source 0 sorted

variable {changes : List Change}

section Reference

/-- What one byte of the source becomes: a replacement starts at the start of its
range, and the bytes of a range are left out. -/
def emitted (changes : List Change) (byte : UInt8 × Nat) : List UInt8 :=
  ((changes.find? fun change => change.1.start = byte.2).elim [] fun change => encode change.2) ++
    if changes.any fun change => change.1.contains byte.2 then [] else [byte.1]

/-- The source with each range replaced, byte by byte and in no order of the changes. -/
def splicedBytes (source : List UInt8) (changes : List Change) : List UInt8 :=
  source.zipIdx.flatMap (emitted changes)

def Apart (first second : Change) : Prop :=
  first.1.stop ≤ second.1.start ∨ second.1.stop ≤ first.1.start

structure Rewritable (source : List Char) (changes : List Change) : Prop where
  bounded : ∀ change ∈ changes, change.1.stop ≤ size source
  aligned : ∀ change ∈ changes,
    Text.Boundary source change.1.start ∧ Text.Boundary source change.1.stop
  apart : changes.Pairwise Apart

instance : Std.Symm Apart where
  symm _ _ apart := Or.symm apart

/-- One change stands in front of the other. -/
def Before (first second : Change) : Prop :=
  first.1.stop ≤ second.1.start

abbrev Filled (changes : List Change) : Prop :=
  ∀ change ∈ changes, change.1.start < change.1.stop

theorem pairwise_before_of_sorted (filled : Filled changes)
    (sorted : changes.Pairwise startsFirst) (apart : changes.Pairwise Apart) :
    changes.Pairwise Before := by
  apply (sorted.and apart).imp_of_mem
  rintro first second - late ⟨ordered, front | back⟩
  · exact front
  · have wide := filled second late
    have order : first.1.start ≤ second.1.start := ordered
    omega

theorem find?_start_eq_some_iff (filled : Filled changes) (apart : changes.Pairwise Apart)
    {offset : Nat} {change : Change} :
    (changes.find? fun other => other.1.start = offset) = some change ↔
      change ∈ changes ∧ change.1.start = offset := by
  constructor
  · exact fun found => ⟨mem_of_find?_eq_some found, by simpa using find?_some found⟩
  · rintro ⟨inside, here⟩
    cases found : changes.find? fun other => other.1.start = offset with
    | none => exact absurd (decide_eq_true here) (find?_eq_none.mp found change inside)
    | some other =>
      have within := mem_of_find?_eq_some found
      have there : other.1.start = offset := by simpa using find?_some found
      by_contra different
      have wide := filled change inside
      have broad := filled other within
      rcases apart.forall within inside (fun same => different (congrArg some same)) with _ | _
      · omega
      · omega

theorem splicedBytes_of_perm {changes others : List Change} (source : List UInt8)
    (same : changes.Perm others) (filled : Filled changes) (apart : changes.Pairwise Apart) :
    splicedBytes source changes = splicedBytes source others := by
  have otherFilled : Filled others := fun change member => filled change (same.mem_iff.mpr member)
  have otherApart := (same.pairwise_iff fun apart => Or.symm apart).mp apart
  apply flatMap_congr
  rintro ⟨byte, offset⟩ -
  have found : (changes.find? fun change => change.1.start = offset) =
      others.find? fun change => change.1.start = offset := by
    ext change
    rw [find?_start_eq_some_iff filled apart, find?_start_eq_some_iff otherFilled otherApart,
      same.mem_iff]
  have covered : (changes.any fun change => change.1.contains offset) =
      others.any fun change => change.1.contains offset :=
    Bool.eq_iff_iff.mpr (by simp only [any_eq_true, same.mem_iff])
  simp only [emitted, found, covered]

variable {offset : Nat} {change : Change} {rest : List Change} {bytes : List UInt8}

theorem emitted_of_lt (byte : UInt8) (early : ∀ change ∈ changes, offset < change.1.start) :
    emitted changes (byte, offset) = [byte] := by
  have none : (changes.find? fun change => change.1.start = offset) = none := by
    apply find?_eq_none.mpr
    intro change member
    have late := early change member
    simpa using late.ne'
  have outside : (changes.any fun change => change.1.contains offset) = false := by
    apply any_eq_false.mpr
    intro change member
    have late := early change member
    simp only [ByteRange.contains, Bool.and_eq_true, decide_eq_true_eq]
    omega
  simp [emitted, none, outside]

theorem emitted_of_contains (byte : UInt8) (before : ∀ other ∈ rest, Before change other)
    (inside : change.1.start ≤ offset) (early : offset < change.1.stop) :
    emitted (change :: rest) (byte, offset) =
      if change.1.start = offset then encode change.2 else [] := by
  have covered : ((change :: rest).any fun other => other.1.contains offset) = true := by
    simp [ByteRange.contains, inside, early]
  by_cases here : change.1.start = offset
  · simp [emitted, covered, here]
  · have none : (rest.find? fun other => other.1.start = offset) = none := by
      apply find?_eq_none.mpr
      intro other member
      have late : change.1.stop ≤ other.1.start := before other member
      simp only [decide_eq_true_eq]
      omega
    simp [emitted, covered, here, none]

theorem emitted_of_le (byte : UInt8) (filled : change.1.start < change.1.stop)
    (late : change.1.stop ≤ offset) :
    emitted (change :: rest) (byte, offset) = emitted rest (byte, offset) := by
  have elsewhere : change.1.start ≠ offset := by omega
  have outside : change.1.contains offset = false := by
    simp only [ByteRange.contains, Bool.and_eq_false_iff, decide_eq_false_iff_not]
    omega
  simp only [emitted, any_cons, outside, Bool.false_or, find?_cons, elsewhere,
    decide_false]

/-- What the bytes from an offset on become. -/
def splicedFrom (offset : Nat) (bytes : List UInt8) (changes : List Change) : List UInt8 :=
  (bytes.zipIdx offset).flatMap (emitted changes)

theorem splicedFrom_append (offset : Nat) (first second : List UInt8) (changes : List Change) :
    splicedFrom offset (first ++ second) changes =
      splicedFrom offset first changes ++
        splicedFrom (offset + first.length) second changes := by
  simp only [splicedFrom, zipIdx_append, flatMap_append]

theorem splicedFrom_of_lt (early : ∀ change ∈ changes, offset + bytes.length ≤ change.1.start) :
    splicedFrom offset bytes changes = bytes := by
  have kept : splicedFrom offset bytes changes =
      (bytes.zipIdx offset).flatMap fun byte => [byte.1] := by
    apply flatMap_congr
    rintro ⟨byte, here⟩ member
    have bound := snd_lt_add_of_mem_zipIdx member
    apply emitted_of_lt
    intro change inside
    have late := early change inside
    omega
  calc
    splicedFrom offset bytes changes = (bytes.zipIdx offset).map Prod.fst := by
      rw [kept, map_eq_flatMap]
    _ = bytes := zipIdx_map_fst offset bytes

theorem splicedFrom_of_contains (before : ∀ other ∈ rest, Before change other)
    (filled : change.1.start < change.1.stop)
    (exact : change.1.start + bytes.length = change.1.stop) :
    splicedFrom change.1.start bytes (change :: rest) = encode change.2 := by
  cases bytes with
  | nil =>
    simp only [length_nil] at exact
    omega
  | cons byte bytes =>
    have inner : splicedFrom (change.1.start + 1) bytes (change :: rest) = [] := by
      apply flatMap_eq_nil_iff.mpr
      rintro ⟨other, offset⟩ member
      have above := le_snd_of_mem_zipIdx member
      have below := snd_lt_add_of_mem_zipIdx member
      simp only [length_cons] at exact
      rw [emitted_of_contains other before (by omega) (by omega), if_neg (by omega)]
    calc
      splicedFrom change.1.start (byte :: bytes) (change :: rest) =
          emitted (change :: rest) (byte, change.1.start) ++
            splicedFrom (change.1.start + 1) bytes (change :: rest) := by
        simp only [splicedFrom, zipIdx_cons, flatMap_cons]
      _ = encode change.2 := by
        rw [inner, emitted_of_contains byte before le_rfl filled, if_pos rfl, append_nil]

theorem splicedFrom_of_le (filled : change.1.start < change.1.stop)
    (late : change.1.stop ≤ offset) :
    splicedFrom offset bytes (change :: rest) = splicedFrom offset bytes rest := by
  apply flatMap_congr
  rintro ⟨byte, here⟩ member
  exact emitted_of_le byte filled (late.trans (le_snd_of_mem_zipIdx member))

end Reference

section Loops

variable {source : List Char}

/-- What the checks ask of a change that comes after an offset. -/
structure Cuts (source : List Char) (finish : Nat) (change : Change) : Prop where
  behind : finish ≤ change.1.start
  filled : change.1.start < change.1.stop
  opens : Text.Boundary source change.1.start
  closes : Text.Boundary source change.1.stop

theorem Cuts.later {finish : Nat} {change other : Change} (held : Cuts source finish other)
    (before : Before change other) : Cuts source change.1.stop other :=
  ⟨before, held.filled, held.opens, held.closes⟩

theorem Cuts.parts {before remaining : List Char} {change : Change}
    (cuts : Cuts (before ++ remaining) (size before) change) :
    ∃ kept cut after, remaining = kept ++ (cut ++ after) ∧
      slice (before ++ remaining) (size before) change.1.start = some kept ∧
      size before + size kept = change.1.start ∧
      change.1.start + size cut = change.1.stop := by
  have opened : (slice (before ++ remaining) (size before) change.1.start).isSome :=
    slice_isSome_iff.mpr ⟨cuts.behind, ⟨before, remaining, rfl, rfl⟩, cuts.opens⟩
  have closed : (slice (before ++ remaining) change.1.start change.1.stop).isSome :=
    slice_isSome_iff.mpr ⟨cuts.filled.le, cuts.opens, cuts.closes⟩
  obtain ⟨kept, foundKept⟩ := Option.isSome_iff_exists.mp opened
  obtain ⟨cut, foundCut⟩ := Option.isSome_iff_exists.mp closed
  obtain ⟨front, others, whole, width, start⟩ := slice_eq_some_iff.mp foundKept
  obtain ⟨longer, after, again, length, stop⟩ := slice_eq_some_iff.mp foundCut
  rw [append_assoc] at whole again
  obtain ⟨rfl, rfl⟩ := append_inj whole width.symm
  rw [← append_assoc] at again
  have size : size (before ++ kept) = size longer := by
    rw [size_append, start, length]
  obtain ⟨rfl, rfl⟩ := append_inj again size
  refine ⟨kept, cut, after, rfl, foundKept, start, ?_⟩
  rw [← length]
  exact stop

/-- The splicing loop from an offset on: it never panics, and it writes the
replaced bytes of the rest of the source. -/
theorem spliceChanges_of_cuts {before remaining : List Char}
    (whole : source = before ++ remaining)
    (cuts : ∀ change ∈ changes, Cuts source (size before) change)
    (ordered : changes.Pairwise Before) :
    ∃ text, spliceChanges source (size before) changes = .ok text ∧
      encode text = splicedFrom (size before) (encode remaining) changes := by
  induction changes generalizing before remaining with
  | nil =>
    have rest : slice source (size before) (size source) = some remaining := by
      apply slice_eq_some_iff.mpr
      exact ⟨before, [], by simp [whole], rfl, by simp [whole]⟩
    refine ⟨remaining, by simp [spliceChanges, index, rest], ?_⟩
    exact (splicedFrom_of_lt (by simp)).symm
  | cons change rest ih =>
    obtain ⟨early, separate⟩ := pairwise_cons.mp ordered
    have first := cuts change mem_cons_self
    subst whole
    obtain ⟨kept, cut, after, rfl, found, start, stop⟩ := first.parts
    have place : size (before ++ kept ++ cut) = change.1.stop := by
      rw [size_append, size_append, start, stop]
    have later : ∀ other ∈ rest,
        Cuts (before ++ (kept ++ (cut ++ after))) (size (before ++ kept ++ cut)) other :=
      fun other member => place ▸ (cuts other (.tail _ member)).later (early other member)
    have whole : before ++ (kept ++ (cut ++ after)) = before ++ kept ++ cut ++ after := by simp
    obtain ⟨text, written, bytes⟩ := ih whole later separate
    rw [place] at written bytes
    refine ⟨kept ++ change.2 ++ text, ?_, ?_⟩
    · simp [spliceChanges, index, found, written, Checked.ofOption]
    · have front : splicedFrom (size before) (encode kept) (change :: rest) =
          encode kept := by
        apply splicedFrom_of_lt
        intro other member
        rcases mem_cons.mp member with rfl | member
        · exact start.le
        · have late : change.1.stop ≤ other.1.start := early other member
          change size before + size kept ≤ other.1.start
          omega
      have middle : splicedFrom change.1.start (encode cut) (change :: rest) =
          encode change.2 :=
        splicedFrom_of_contains early first.filled stop
      have behind : splicedFrom change.1.stop (encode after) (change :: rest) =
          splicedFrom change.1.stop (encode after) rest :=
        splicedFrom_of_le first.filled le_rfl
      calc
        encode (kept ++ change.2 ++ text) =
            encode kept ++ (encode change.2 ++ splicedFrom change.1.stop (encode after) rest) := by
          rw [encode_append, encode_append, bytes, append_assoc]
        _ = splicedFrom (size before) (encode (kept ++ (cut ++ after)))
              (change :: rest) := by
          rw [encode_append, encode_append, splicedFrom_append, splicedFrom_append,
            front, ← behind, ← middle]
          change _ = _ ++ (splicedFrom (size before + size kept) _ _ ++
            splicedFrom (size before + size kept + size cut) _ _)
          rw [start, stop]

/-- The sizes the checking loop counts: what the splicing loop writes, with the
bytes in front of the offset. -/
theorem measureChanges_of_cuts {finish bytes : Nat} {text : List Char}
    (cuts : ∀ change ∈ changes, Cuts source finish change) (ordered : changes.Pairwise Before)
    (enough : size source ≤ bytes + finish)
    (fits : bytes + (changes.map fun change => size change.2).sum ≤ usizeMax)
    (written : spliceChanges source finish changes = .ok text) :
    ∃ total, measureChanges source finish bytes changes = .ok total ∧
      total + size source = bytes + finish + size text := by
  induction changes generalizing finish bytes text with
  | nil =>
    obtain ⟨before, after, whole, front, all⟩ :=
      slice_eq_some_iff.mp (Checked.ofOption_eq_ok_iff.mp written)
    exact ⟨bytes, rfl, by omega⟩
  | cons change rest ih =>
    obtain ⟨early, separate⟩ := pairwise_cons.mp ordered
    have first := cuts change mem_cons_self
    obtain ⟨kept, foundKept, found⟩ := of_bind written
    obtain ⟨others, rewritten, same⟩ := of_bind found
    cases same
    obtain ⟨before, after, -, front, back⟩ :=
      slice_eq_some_iff.mp (Checked.ofOption_eq_ok_iff.mp foundKept)
    have inside := first.closes.le_size
    have wide := first.filled
    simp only [map_cons, sum_cons] at fits
    have removed : change.1.length ≤ bytes := by
      rw [ByteRange.length]
      omega
    have later : ∀ other ∈ rest, Cuts source change.1.stop other :=
      fun other member => (cuts other (.tail _ member)).later (early other member)
    have enough' : size source ≤
        bytes - change.1.length + size change.2 + change.1.stop := by
      rw [ByteRange.length]
      omega
    obtain ⟨total, counted, sizes⟩ :=
      ih later separate enough' (by omega) rewritten
    refine ⟨total, ?_, ?_⟩
    · have sliced : (slice source change.1.start change.1.stop).isSome = true :=
        slice_isSome_iff.mpr ⟨wide.le, first.opens, first.closes⟩
      have accepted : ¬(change.1.start < finish ∨ change.1.start > change.1.stop ∨
          (slice source change.1.start change.1.stop).isNone = true) := by
        rintro (early | crossed | missing)
        · omega
        · omega
        · simp [Option.isNone_iff_eq_none.mp missing] at sliced
      have sized : ¬(bytes < change.1.length ∨
          bytes - change.1.length + size change.2 > usizeMax) := by omega
      simpa only [measureChanges, failIf, if_neg accepted, if_neg sized, Checked.ok_bind]
        using counted
    · have length : change.1.length = change.1.stop - change.1.start := rfl
      simp only [size_append]
      omega

theorem cuts_of_measureChanges {finish bytes total : Nat} (filled : Filled changes)
    (counted : measureChanges source finish bytes changes = .ok total) :
    (∀ change ∈ changes, Cuts source finish change) ∧ changes.Pairwise Before := by
  induction changes generalizing finish bytes with
  | nil => exact ⟨by simp, List.Pairwise.nil⟩
  | cons change rest ih =>
    obtain ⟨_, accepted, others⟩ := of_bind counted
    obtain ⟨_, _, remaining⟩ := of_bind others
    have passed := Checked.failIf_eq_ok_iff.mp accepted
    push Not at passed
    have sliced := Option.isSome_iff_ne_none.mpr (mt Option.isNone_iff_eq_none.mpr passed.2.2)
    obtain ⟨-, opens, closes⟩ := slice_isSome_iff.mp sliced
    have wide := filled change mem_cons_self
    obtain ⟨later, separate⟩ := ih
      (fun other member => filled other (mem_cons_of_mem change member)) remaining
    constructor
    · intro other member
      rcases mem_cons.mp member with rfl | member
      · exact ⟨passed.1, wide, opens, closes⟩
      · have held := later other member
        have behind : change.1.stop ≤ other.1.start := held.behind
        exact ⟨by omega, held.filled, held.opens, held.closes⟩
    · exact pairwise_cons.mpr
        ⟨fun other member => (later other member).behind, separate⟩

end Loops

section Rewriting

variable {source : List Char} {changes : List Change}

theorem Rewritable.cuts (rewritable : Rewritable source changes) (filled : Filled changes) :
    ∀ change ∈ changes, Cuts source 0 change := by
  intro change member
  obtain ⟨opens, closes⟩ := rewritable.aligned change member
  exact ⟨Nat.zero_le _, filled change member, opens, closes⟩

theorem rewriteRanges_of_rewritable (rewritable : Rewritable source changes)
    (filled : Filled changes)
    (sizes : size source + (changes.map fun change => size change.2).sum ≤ usizeMax)
    (room : (splicedBytes (encode source) changes).length ≤ isizeMax) :
    ∃ text, rewriteRanges source changes = .ok text ∧
      encode text = splicedBytes (encode source) changes := by
  have same := perm_insertionSort startsFirst changes
  have filledSorted : Filled (changes.insertionSort startsFirst) :=
    fun change member => filled change (same.mem_iff.mp member)
  have cuts : ∀ change ∈ changes.insertionSort startsFirst, Cuts source 0 change :=
    fun change member => rewritable.cuts filled change (same.mem_iff.mp member)
  have apart : (changes.insertionSort startsFirst).Pairwise Apart :=
    (same.pairwise_iff fun apart => Or.symm apart).mpr rewritable.apart
  have ordered := pairwise_before_of_sorted filledSorted
    (pairwise_insertionSort startsFirst changes) apart
  obtain ⟨text, written, bytes⟩ :
      ∃ text, spliceChanges source 0 (changes.insertionSort startsFirst) = .ok text ∧
        encode text = splicedFrom 0 (encode source) (changes.insertionSort startsFirst) :=
    @spliceChanges_of_cuts _ source [] source rfl cuts ordered
  have spliced : encode text = splicedBytes (encode source) changes :=
    bytes.trans (splicedBytes_of_perm (encode source) same filledSorted apart)
  have total : ((changes.insertionSort startsFirst).map fun change => size change.2).sum =
      (changes.map fun change => size change.2).sum :=
    (same.map _).sum_nat
  rw [← total] at sizes
  have enough : size source ≤ size source + 0 := by omega
  obtain ⟨count, counted, weighed⟩ := measureChanges_of_cuts cuts ordered enough sizes written
  have allocated : ¬count > isizeMax := by
    have length : size text = (splicedBytes (encode source) changes).length :=
      congrArg List.length spliced
    omega
  refine ⟨text, ?_, spliced⟩
  simp only [rewriteRanges, counted, Checked.ok_bind, failIf, if_neg allocated]
  exact written

theorem rewritable_of_rewriteRanges {text : List Char} (filled : Filled changes)
    (rewritten : rewriteRanges source changes = .ok text) : Rewritable source changes := by
  have same := perm_insertionSort startsFirst changes
  obtain ⟨bytes, counted, -⟩ := of_bind rewritten
  obtain ⟨sortedCuts, ordered⟩ := cuts_of_measureChanges
    (fun change member => filled change (same.mem_iff.mp member)) counted
  have cuts : ∀ change ∈ changes, Cuts source 0 change :=
    fun change member => sortedCuts change (same.mem_iff.mpr member)
  constructor
  · exact fun change member => (cuts change member).closes.le_size
  · exact fun change member => ⟨(cuts change member).opens, (cuts change member).closes⟩
  · exact (same.pairwise_iff fun apart => Or.symm apart).mp (ordered.imp .inl)

/-- For changes of non-empty ranges whose sizes do not overflow, rewriting
succeeds exactly when the ranges lie within the source, on character boundaries
and apart from each other, and then writes the source with each of them replaced. -/
theorem rewriteRanges_splices (source : List Char) (changes : List Change)
    (filled : ∀ change ∈ changes, change.1.start < change.1.stop)
    (sizes : size source + (changes.map fun change => size change.2).sum ≤ usizeMax)
    (room : (splicedBytes (encode source) changes).length ≤ isizeMax) :
    ((∃ text, rewriteRanges source changes = .ok text) ↔ Rewritable source changes) ∧
      ∀ text, rewriteRanges source changes = .ok text →
        encode text = splicedBytes (encode source) changes := by
  refine ⟨⟨?_, ?_⟩, ?_⟩
  · rintro ⟨text, rewritten⟩
    exact rewritable_of_rewriteRanges filled rewritten
  · intro rewritable
    obtain ⟨text, rewritten, -⟩ := rewriteRanges_of_rewritable rewritable filled sizes room
    exact ⟨text, rewritten⟩
  · intro text rewritten
    have rewritable := rewritable_of_rewriteRanges filled rewritten
    obtain ⟨other, again, spliced⟩ := rewriteRanges_of_rewritable rewritable filled sizes room
    rw [rewritten, Checked.ok.injEq] at again
    rw [again]
    exact spliced

/-- Two changes out of order, beside characters of more than one byte. -/
theorem rewriteRanges_splices_unordered :
    rewriteRanges "é:a:b:終".toList [(⟨5, 6⟩, "longer".toList), (⟨3, 4⟩, [])] =
        .ok "é::longer:終".toList ∧
      Rewritable "é:a:b:終".toList [(⟨5, 6⟩, "longer".toList), (⟨3, 4⟩, [])] := by
  have rewritten : rewriteRanges "é:a:b:終".toList
      [(⟨5, 6⟩, "longer".toList), (⟨3, 4⟩, [])] = .ok "é::longer:終".toList := rfl
  have spliced := rewriteRanges_splices "é:a:b:終".toList
    [(⟨5, 6⟩, "longer".toList), (⟨3, 4⟩, [])] (by decide) (by decide +kernel) (by decide +kernel)
  exact ⟨rewritten, spliced.1.mp ⟨_, rewritten⟩⟩

end Rewriting
end Offprint.Document
