import Offprint.Capture.Events

/-!
# Event delivery

What every subscriber has received at any moment of any run.  The journal's
retained events are a function of its log (`Logged`), and what a stream has
delivered together with what it holds ready covers the log up to its newest
element (`Covers`): guaranteed events are all there, a progress event is missing
only below a later one, and a detail event only below a ring full of later ones.
-/

namespace Offprint.Capture

open Effect List RetainedEvents Nat

variable {Fields : Type} {envelope : EventEnvelope Fields} {sequence : Nat} {before : Option Nat}
  {log : List (EventEnvelope Fields)}

/-! ## The log -/

/-- The part of a log that is retained in one way. -/
def ofClass (kept : Retention) (log : List (EventEnvelope Fields)) : List (EventEnvelope Fields) :=
  log.filter fun envelope => envelope.retention = kept

theorem mem_ofClass {kept : Retention} :
    envelope ∈ ofClass kept log ↔ envelope ∈ log ∧ envelope.retention = kept := by
  simp [ofClass]

theorem ofClass_append_singleton (kept : Retention) (log : List (EventEnvelope Fields))
    (envelope : EventEnvelope Fields) :
    ofClass kept (log ++ [envelope]) =
      ofClass kept log ++ if envelope.retention = kept then [envelope] else [] := by
  by_cases same : envelope.retention = kept <;> simp [ofClass, same]

/-- Envelopes carry their position in the log, counted from one. -/
def Numbered (log : List (EventEnvelope Fields)) : Prop :=
  ∀ index envelope, log[index]? = some envelope → envelope.sequence = index + 1

section Numbered

variable {log : List (EventEnvelope Fields)} (numbered : Numbered log)
  {envelope : EventEnvelope Fields}
include numbered

theorem Numbered.pairwise : log.Pairwise fun left right => left.sequence < right.sequence := by
  rw [pairwise_iff_getElem]
  intro first second firstLt secondLt below
  rw [numbered first log[first] (getElem?_eq_getElem firstLt),
    numbered second log[second] (getElem?_eq_getElem secondLt)]
  omega

theorem Numbered.sequence_le (member : envelope ∈ log) : envelope.sequence ≤ log.length := by
  obtain ⟨index, found⟩ := mem_iff_getElem?.mp member
  have bound := (List.getElem?_eq_some_iff.mp found).1
  rw [numbered index envelope found]
  omega

theorem Numbered.pos (member : envelope ∈ log) : 0 < envelope.sequence := by
  obtain ⟨index, found⟩ := mem_iff_getElem?.mp member
  rw [numbered index envelope found]
  omega

theorem Numbered.injective {left right : EventEnvelope Fields} (leftMember : left ∈ log)
    (rightMember : right ∈ log) (same : left.sequence = right.sequence) : left = right := by
  obtain ⟨first, foundFirst⟩ := mem_iff_getElem?.mp leftMember
  obtain ⟨second, foundSecond⟩ := mem_iff_getElem?.mp rightMember
  rw [numbered first left foundFirst, numbered second right foundSecond] at same
  have index : first = second := by omega
  subst index
  exact Option.some.inj (foundFirst.symm.trans foundSecond)

end Numbered

/-- The journal's counter and its retained events follow from its log. -/
structure Logged (journal : EventJournal Fields) : Prop where
  numbered : Numbered journal.log
  sequence : journal.sequence = journal.log.length
  guaranteed : journal.retained.guaranteed = ofClass .guaranteed journal.log
  details : journal.retained.details = newest eventCapacity (ofClass .detail journal.log)
  progress : journal.retained.latestProgress = (ofClass .progress journal.log).getLast?

theorem logged_new : Logged (EventJournal.new : EventJournal Fields) where
  numbered := by
    intro index envelope found
    cases found
  sequence := rfl
  guaranteed := rfl
  details := (newest_nil eventCapacity).symm
  progress := rfl

@[simp]
theorem log_emit (journal : EventJournal Fields) (event : CaptureEvent Fields) :
    (journal.emit event).log = journal.log ++ [journal.stamp event] :=
  rfl

variable {journal : EventJournal Fields}

theorem Logged.emit (logged : Logged journal) (event : CaptureEvent Fields) :
    Logged (journal.emit event) where
  numbered := by
    intro index envelope found
    rw [log_emit] at found
    rcases lt_or_ge index journal.log.length with early | late
    · rw [getElem?_append_left early] at found
      exact logged.numbered index envelope found
    · rw [getElem?_append_right late, getElem?_singleton] at found
      split at found
      · cases found
        have position : index = journal.log.length := by omega
        rw [position, ← logged.sequence]
        rfl
      · cases found
  sequence := by
    rw [log_emit, length_append, ← logged.sequence]
    rfl
  guaranteed := by
    rw [log_emit, ofClass_append_singleton, ← logged.guaranteed]
    simp only [EventJournal.emit, retain]
    split <;> simp_all
  details := by
    rw [log_emit, ofClass_append_singleton]
    simp only [EventJournal.emit, retain]
    split
    case h_2 detail =>
      rw [detail, if_pos rfl, logged.details]
      exact pushRing_newest (by decide) _ _
    all_goals simp_all [logged.details]
  progress := by
    rw [log_emit, ofClass_append_singleton]
    simp only [EventJournal.emit, retain]
    split <;> simp_all [logged.progress]

/-! ## Retained events -/

theorem mem_after {retained : RetainedEvents Fields} :
    envelope ∈ retained.after sequence before ↔
      (envelope ∈ retained.guaranteed ∨ envelope ∈ retained.details ∨
        retained.latestProgress = some envelope) ∧
      eventIsBetween envelope sequence before = true := by
  simp only [RetainedEvents.after, mem_insertionSort, mem_append, mem_filter,
    Option.mem_toList, Option.filter_eq_some_iff]
  tauto

theorem eventIsBetween_iff :
    eventIsBetween envelope sequence before = true ↔
      sequence < envelope.sequence ∧ ∀ limit, before = some limit → envelope.sequence < limit := by
  cases before <;> simp [eventIsBetween]

section Retained

variable {journal : EventJournal Fields} (logged : Logged journal) {envelope : EventEnvelope Fields}
include logged

theorem Logged.mem_log_of_retained
    (kept : envelope ∈ journal.retained.guaranteed ∨ envelope ∈ journal.retained.details ∨
      journal.retained.latestProgress = some envelope) : envelope ∈ journal.log := by
  rw [logged.guaranteed, logged.details, logged.progress] at kept
  rcases kept with guaranteed | detail | progress
  · exact (mem_ofClass.mp guaranteed).1
  · exact (mem_ofClass.mp (mem_of_mem_drop detail)).1
  · exact (mem_ofClass.mp (mem_of_getLast? progress)).1

theorem Logged.mem_log_of_after (member : envelope ∈ journal.retained.after sequence before) :
    envelope ∈ journal.log :=
  logged.mem_log_of_retained (mem_after.mp member).1

theorem Logged.retained_last (last : journal.log.getLast? = some envelope) :
    envelope ∈ journal.retained.guaranteed ∨ envelope ∈ journal.retained.details ∨
      journal.retained.latestProgress = some envelope := by
  obtain ⟨earlier, split⟩ := getLast?_eq_some_iff.mp last
  rw [logged.guaranteed, logged.details, logged.progress, split]
  simp only [ofClass_append_singleton]
  cases kept : envelope.retention with
  | guaranteed => simp
  | progress => simp
  | detail =>
    apply Or.inr
    apply Or.inl
    rw [if_pos rfl, ← pushRing_newest (by decide)]
    simp [pushRing]

theorem Logged.nodup_retained : (journal.retained.guaranteed ++ journal.retained.details ++
      journal.retained.latestProgress.toList).Nodup := by
  have distinct : journal.log.Nodup :=
    logged.numbered.pairwise.imp fun below same => by
      rw [same] at below
      exact lt_irrefl _ below
  have classNodup (kept : Retention) : (ofClass kept journal.log).Nodup := distinct.filter _
  rw [logged.guaranteed, logged.details, logged.progress]
  have detailClass : ∀ envelope ∈ newest eventCapacity (ofClass .detail journal.log),
      envelope.retention = .detail :=
    fun envelope member => (mem_ofClass.mp (mem_of_mem_drop member)).2
  have progressClass : ∀ envelope ∈ (ofClass .progress journal.log).getLast?.toList,
      envelope.retention = .progress := by
    intro envelope member
    rw [Option.mem_toList] at member
    exact (mem_ofClass.mp (mem_of_getLast? member)).2
  refine nodup_append.mpr ⟨nodup_append.mpr ⟨classNodup _, ?_, ?_⟩, ?_, ?_⟩
  · exact (drop_sublist _ _).nodup (classNodup _)
  · rintro left leftMember right rightMember rfl
    have class₁ := (mem_ofClass.mp leftMember).2
    rw [detailClass left rightMember] at class₁
    cases class₁
  · cases (ofClass .progress journal.log).getLast? <;> simp
  · rintro left leftMember right rightMember rfl
    have class₂ := progressClass left rightMember
    rcases mem_append.mp leftMember with guaranteed | detail
    · rw [(mem_ofClass.mp guaranteed).2] at class₂
      cases class₂
    · rw [detailClass left detail] at class₂
      cases class₂

theorem Logged.pairwise_after (sequence : Nat) (before : Option Nat) :
    (journal.retained.after sequence before).Pairwise
      fun left right => left.sequence < right.sequence := by
  have sorted : (journal.retained.after sequence before).Pairwise
      fun left right => left.sequence ≤ right.sequence :=
    pairwise_insertionSort _ _
  have distinct : (journal.retained.after sequence before).Nodup := by
    apply (perm_insertionSort _ _).nodup_iff.mpr
    apply List.Sublist.nodup _ logged.nodup_retained
    apply List.Sublist.append filter_sublist
    cases journal.retained.latestProgress with
    | none => simp
    | some progress => by_cases kept : eventIsBetween progress sequence before <;> simp [kept]
  have members := pairwise_of_forall_mem_list
    (fun left (leftMember : left ∈ journal.retained.after sequence before) right rightMember =>
      And.intro (logged.mem_log_of_after leftMember) (logged.mem_log_of_after rightMember))
  apply ((sorted.and distinct).and members).imp
  rintro left right ⟨⟨below, differs⟩, leftMember, rightMember⟩
  apply lt_of_le_of_ne below
  intro same
  exact differs (logged.numbered.injective leftMember rightMember same)

end Retained

/-! ## Covering the log -/

/-- The number of the last envelope, or zero. -/
def lastOf (envelopes : List (EventEnvelope Fields)) : Nat :=
  (envelopes.getLast?.map EventEnvelope.sequence).getD 0

@[simp]
theorem lastOf_nil : lastOf ([] : List (EventEnvelope Fields)) = 0 :=
  rfl

@[simp]
theorem lastOf_append_singleton (envelopes : List (EventEnvelope Fields))
    (envelope : EventEnvelope Fields) : lastOf (envelopes ++ [envelope]) = envelope.sequence := by
  simp [lastOf]

theorem le_lastOf {envelopes : List (EventEnvelope Fields)}
    (ordered : envelopes.Pairwise fun left right => left.sequence < right.sequence)
    (member : envelope ∈ envelopes) : envelope.sequence ≤ lastOf envelopes := by
  rcases eq_nil_or_concat' envelopes with rfl | ⟨earlier, last, rfl⟩
  · cases member
  · rw [lastOf_append_singleton]
    rcases mem_append.mp member with before | isLast
    · exact le_of_lt ((pairwise_append.mp ordered).2.2 envelope before last (by simp))
    · rw [mem_singleton.mp isLast]

/-- The detail events of a log that came after a given number. -/
def laterDetails (log : List (EventEnvelope Fields)) (sequence : Nat) :
    List (EventEnvelope Fields) :=
  (ofClass .detail log).filter fun envelope => sequence < envelope.sequence

/-- An envelope that a stream may pass over: a progress event with a later one,
or a detail event with a ring full of later ones. -/
def Passable (log : List (EventEnvelope Fields)) (envelope : EventEnvelope Fields) : Prop :=
  match envelope.retention with
  | .guaranteed => False
  | .progress => ∃ later ∈ ofClass .progress log, envelope.sequence < later.sequence
  | .detail => eventCapacity ≤ (laterDetails log envelope.sequence).length

/-- Of the log after a position, the retained events lack only what may be
passed over. -/
theorem Logged.passable_of_not_mem_after (logged : Logged journal) (member : envelope ∈ journal.log)
    (between : eventIsBetween envelope sequence before = true)
    (missing : envelope ∉ journal.retained.after sequence before) :
    Passable journal.log envelope := by
  have dropped : ¬ (envelope ∈ journal.retained.guaranteed ∨
      envelope ∈ journal.retained.details ∨
      journal.retained.latestProgress = some envelope) :=
    fun kept => missing (mem_after.mpr ⟨kept, between⟩)
  simp only [not_or, logged.guaranteed, logged.details, logged.progress] at dropped
  obtain ⟨notGuaranteed, notDetail, notProgress⟩ := dropped
  have classMember : envelope ∈ ofClass envelope.retention journal.log :=
    mem_ofClass.mpr ⟨member, rfl⟩
  have ordered (kept : Retention) : (ofClass kept journal.log).Pairwise
      fun left right => left.sequence < right.sequence :=
    logged.numbered.pairwise.filter _
  unfold Passable
  cases kept : envelope.retention with
  | guaranteed =>
    rw [kept] at classMember
    exact absurd classMember notGuaranteed
  | progress =>
    rw [kept] at classMember
    rcases eq_nil_or_concat' (ofClass .progress journal.log) with
      none | ⟨earlier, last, split⟩
    · rw [none] at classMember
      cases classMember
    · refine ⟨last, by simp [split], ?_⟩
      have inOrder := ordered .progress
      rw [split] at classMember notProgress inOrder
      rcases mem_append.mp classMember with early | isLast
      · exact (pairwise_append.mp inOrder).2.2 envelope early last (by simp)
      · rw [mem_singleton.mp isLast] at notProgress
        simp at notProgress
  | detail =>
    rw [kept] at classMember
    obtain ⟨earlier, later, split, early, length⟩ :=
      exists_of_not_mem_newest classMember notDetail
    have inOrder := ordered .detail
    rw [split] at inOrder
    have following : later.Sublist (laterDetails journal.log envelope.sequence) := by
      rw [laterDetails, split, filter_append]
      apply List.Sublist.trans _ (sublist_append_right _ _)
      rw [filter_eq_self.mpr]
      intro newer newerMember
      simpa using (pairwise_append.mp inOrder).2.2 envelope early newer newerMember
    rw [← length]
    exact following.length_le

/-- What a stream has seen is in order, was emitted, and lacks of the log up to
its newest element only what may be passed over. -/
structure Covers (log seen : List (EventEnvelope Fields)) : Prop where
  ordered : seen.Pairwise fun left right => left.sequence < right.sequence
  emitted : ∀ envelope ∈ seen, envelope ∈ log
  complete : ∀ envelope ∈ log, envelope.sequence ≤ lastOf seen → envelope ∉ seen →
    Passable log envelope

theorem covers_nil (numbered : Numbered log) :
    Covers log [] where
  ordered := List.Pairwise.nil
  emitted := by simp
  complete := by
    intro envelope member early
    have positive := numbered.pos member
    rw [lastOf_nil] at early
    omega

theorem Passable.append (passable : Passable log envelope) (newer : EventEnvelope Fields) :
    Passable (log ++ [newer]) envelope := by
  unfold Passable at passable ⊢
  cases kept : envelope.retention with
  | guaranteed => simp [kept] at passable
  | progress =>
    simp only [kept] at passable ⊢
    obtain ⟨later, member, below⟩ := passable
    refine ⟨later, ?_, below⟩
    rw [ofClass_append_singleton]
    exact mem_append_left _ member
  | detail =>
    simp only [kept] at passable ⊢
    apply le_trans passable
    simp only [laterDetails, ofClass_append_singleton, filter_append, length_append]
    exact le_add_right _ _

theorem Covers.lastOf_le {log seen : List (EventEnvelope Fields)} (covers : Covers log seen)
    (numbered : Numbered log) : lastOf seen ≤ log.length := by
  rcases eq_nil_or_concat' seen with rfl | ⟨earlier, last, rfl⟩
  · exact zero_le _
  · rw [lastOf_append_singleton]
    exact numbered.sequence_le (covers.emitted last (by simp))

section Covering

variable {journal : EventJournal Fields} (logged : Logged journal)
  {seen : List (EventEnvelope Fields)} (covers : Covers journal.log seen)
include logged covers

theorem Covers.emit (event : CaptureEvent Fields) : Covers (journal.emit event).log seen where
  ordered := covers.ordered
  emitted := by
    intro envelope member
    rw [log_emit]
    exact mem_append_left _ (covers.emitted envelope member)
  complete := by
    intro envelope member early missing
    rw [log_emit] at member ⊢
    rcases mem_append.mp member with old | new
    · exact (covers.complete envelope old early missing).append _
    · have bound := covers.lastOf_le logged.numbered
      rw [mem_singleton.mp new] at early
      simp only [EventJournal.stamp, logged.sequence] at early
      omega

/-- Reading the retained events before an envelope and then the envelope
itself keeps the log covered. -/
theorem Covers.extend_before (member : envelope ∈ journal.log)
    (newer : lastOf seen < envelope.sequence) : Covers journal.log
      (seen ++ (journal.retained.after (lastOf seen) (some envelope.sequence) ++ [envelope])) where
  ordered := by
    have between : ∀ retained ∈ journal.retained.after (lastOf seen) (some envelope.sequence),
        lastOf seen < retained.sequence ∧ retained.sequence < envelope.sequence := by
      intro retained retainedMember
      have window := eventIsBetween_iff.mp (mem_after.mp retainedMember).2
      exact ⟨window.1, window.2 _ rfl⟩
    refine pairwise_append.mpr ⟨covers.ordered, pairwise_append.mpr
      ⟨logged.pairwise_after _ _, pairwise_singleton _ _, ?_⟩, ?_⟩
    · intro left leftMember right rightMember
      rw [mem_singleton.mp rightMember]
      exact (between left leftMember).2
    · intro left leftMember right rightMember
      apply lt_of_le_of_lt (le_lastOf covers.ordered leftMember)
      rcases mem_append.mp rightMember with retained | isLast
      · exact (between right retained).1
      · rw [mem_singleton.mp isLast]
        exact newer
  emitted := by
    intro other otherMember
    rcases mem_append.mp otherMember with old | new
    · exact covers.emitted other old
    · rcases mem_append.mp new with retained | isLast
      · exact logged.mem_log_of_after retained
      · rw [mem_singleton.mp isLast]
        exact member
  complete := by
    intro other otherMember early missing
    simp only [mem_append, mem_singleton, not_or] at missing
    obtain ⟨notSeen, notRetained, notLast⟩ := missing
    rw [← append_assoc, lastOf_append_singleton] at early
    rcases lt_or_ge (lastOf seen) other.sequence with after | before
    · apply logged.passable_of_not_mem_after otherMember _ notRetained
      apply eventIsBetween_iff.mpr
      refine ⟨after, ?_⟩
      rintro limit ⟨⟩
      apply lt_of_le_of_ne early
      intro same
      exact notLast (logged.numbered.injective otherMember member same)
    · exact covers.complete other otherMember before notSeen

theorem Covers.extend_all :
    Covers journal.log (seen ++ journal.retained.after (lastOf seen) none) where
  ordered := by
    refine pairwise_append.mpr ⟨covers.ordered, logged.pairwise_after _ _, ?_⟩
    intro left leftMember right rightMember
    apply lt_of_le_of_lt (le_lastOf covers.ordered leftMember)
    exact (eventIsBetween_iff.mp (mem_after.mp rightMember).2).1
  emitted := by
    intro envelope member
    rcases mem_append.mp member with old | new
    · exact covers.emitted envelope old
    · exact logged.mem_log_of_after new
  complete := by
    intro envelope member early missing
    simp only [mem_append, not_or] at missing
    rcases lt_or_ge (lastOf seen) envelope.sequence with after | before
    · apply logged.passable_of_not_mem_after member _ missing.2
      exact eventIsBetween_iff.mpr ⟨after, by simp⟩
    · exact covers.complete envelope member before missing.1

theorem Covers.length_le_lastOf_extend_all : journal.log.length ≤
      lastOf (seen ++ journal.retained.after (lastOf seen) none) := by
  have extended := covers.extend_all logged
  rcases last : journal.log.getLast? with _ | envelope
  · rw [getLast?_eq_none_iff.mp last]
    exact zero_le _
  · have member := mem_of_getLast? last
    have number : envelope.sequence = journal.log.length := by
      rw [getLast?_eq_getElem?] at last
      have positive := length_pos_of_mem member
      rw [logged.numbered _ envelope last]
      omega
    rcases lt_or_ge (lastOf seen) envelope.sequence with after | before
    · rw [← number]
      apply le_lastOf extended.ordered
      apply mem_append_right
      exact mem_after.mpr ⟨logged.retained_last last, eventIsBetween_iff.mpr ⟨after, by simp⟩⟩
    · rcases eq_nil_or_concat' (journal.retained.after (lastOf seen) none) with
        none | ⟨earlier, newest, split⟩
      · rw [none, append_nil]
        omega
      · have window := eventIsBetween_iff.mp
          (mem_after.mp (split ▸ mem_append_right earlier (mem_singleton_self newest))).2
        rw [split, ← append_assoc, lastOf_append_singleton]
        omega

end Covering

end Offprint.Capture
