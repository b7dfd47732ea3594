import Offprint.Html.Verify

/-!
# What artifacts embed

What an artifact embeds is found by following references: those of its document, those of the
documents of its frames, and those of every embedded stylesheet, image and page, at any depth.
Verification meets exactly these references.
-/

namespace Offprint.Html

open Data Document Effect Checked List Model

variable {document : Document} {mediaType : List Char} {bytes : List UInt8}

section Found

variable {Url : Type} [UrlParser Url] [DataUrlReader Url] [StylesheetParser] [Sha256]
variable [ArtifactCodec] {base : Url} {urls : List Url}
  {found others : Multiset (Url × ResourceKey)} {documents : List Document}

def DocumentRefers (base : Url) (document : Document) (urls : List Url) : Prop :=
  ∃ found, discoverDocumentResources document base = .ok found ∧
    urls = found.resources.map DiscoveredDocumentResource.resolvedUrl

def Refers (base : Url) (mediaType : List Char) (bytes : List UInt8) (urls : List Url) : Prop :=
  match nestedKind (normalizeMediaType mediaType) with
  | none => urls = []
  | some .css =>
    ∃ css found, Utf8.decode bytes = some css ∧ discoverCssResources css base = .ok found ∧
      urls = found.resources.map DiscoveredCssResource.resolvedUrl
  | some .svg | some .html => DocumentRefers base (ArtifactCodec.parseDocument bytes) urls

/-- Some references and all those behind them, each with what it embeds. -/
inductive Embedded (base : Url) : List Url → Multiset (Url × ResourceKey) → Prop
  | nil : Embedded base [] 0
  | cons {url : Url} {rest urls : List Url} {mediaType : List Char} {bytes : List UInt8}
      {inner others : Multiset (Url × ResourceKey)}
      (read : readEmbedded url = .ok (mediaType, bytes))
      (refers : Refers base mediaType bytes urls)
      (inside : Embedded base urls inner) (behind : Embedded base rest others) :
      Embedded base (url :: rest) ((url, keyOf mediaType bytes) ::ₘ (inner + others))

/-- The documents in the frames of a document. -/
def frameDocuments (document : Document) : List Document :=
  document.walk.filterMap fun id =>
    (document.element? id).bind fun element =>
      if isFrameElement element.1 then (attributeValue element.2 "srcdoc").map frameDocument
      else none

/-- The references of some documents and of the documents in their frames. -/
inductive Holds (base : Url) : List Document → Multiset (Url × ResourceKey) → Prop
  | nil : Holds base [] 0
  | cons {document : Document} {rest : List Document} {urls : List Url}
      {here inside others : Multiset (Url × ResourceKey)}
      (refers : DocumentRefers base document urls) (embedded : Embedded base urls here)
      (frames : Holds base (frameDocuments document) inside) (behind : Holds base rest others) :
      Holds base (document :: rest) (here + inside + others)

omit [DataUrlReader Url] [StylesheetParser] [Sha256] [ArtifactCodec] in
theorem DocumentRefers.unique {others : List Url} (first : DocumentRefers base document urls)
    (second : DocumentRefers base document others) : others = urls := by
  obtain ⟨found, discovered, rfl⟩ := first
  obtain ⟨again, rediscovered, rfl⟩ := second
  rw [discovered] at rediscovered
  cases rediscovered
  rfl

omit [DataUrlReader Url] [Sha256] in
theorem Refers.unique {others : List Url} (first : Refers base mediaType bytes urls)
    (second : Refers base mediaType bytes others) : others = urls := by
  unfold Refers at first second
  cases kind : nestedKind (normalizeMediaType mediaType) with
  | none =>
    rw [kind] at first second
    exact second.trans first.symm
  | some kind' =>
    rw [kind] at first second
    cases kind' with
    | css =>
      obtain ⟨css, found, decoded, discovered, rfl⟩ := first
      obtain ⟨css', again, decoded', rediscovered, rfl⟩ := second
      obtain rfl := Option.some.inj (decoded'.symm.trans decoded)
      rw [discovered] at rediscovered
      cases rediscovered
      rfl
    | svg | html => exact DocumentRefers.unique first second

theorem Embedded.unique (first : Embedded base urls found) (second : Embedded base urls others) :
    others = found := by
  induction first generalizing others with
  | nil =>
    cases second
    rfl
  | cons read refers inside behind insideHypothesis behindHypothesis =>
    cases second with
    | cons read' refers' inside' behind' =>
      rw [read] at read'
      cases read'
      obtain rfl := refers.unique refers'
      rw [insideHypothesis inside', behindHypothesis behind']

theorem Holds.unique (first : Holds base documents found) (second : Holds base documents others) :
    others = found := by
  induction first generalizing others with
  | nil =>
    cases second
    rfl
  | cons refers embedded frames behind framesHypothesis behindHypothesis =>
    cases second with
    | cons refers' embedded' frames' behind' =>
      obtain rfl := refers.unique refers'
      rw [embedded.unique embedded', framesHypothesis frames', behindHypothesis behind']

theorem Holds.perm {others : List Document} (holds : Holds base documents found)
    (same : documents.Perm others) : Holds base others found := by
  induction same generalizing found with
  | nil => exact holds
  | cons document same ih =>
    cases holds with
    | cons refers embedded frames behind =>
      exact .cons refers embedded frames (ih behind)
  | swap first second rest =>
    cases holds with
    | @cons _ _ _ here inside _ refers embedded frames behind =>
      cases behind with
      | @cons _ _ _ here' inside' others refers' embedded' frames' behind =>
        have swapped := Holds.cons refers' embedded' frames'
          (.cons refers embedded frames behind)
        rwa [add_left_comm] at swapped
  | trans _ _ firstHypothesis secondHypothesis => exact secondHypothesis (firstHypothesis holds)

theorem Holds.of_append {others : List Document} (holds : Holds base (documents ++ others) found) :
    ∃ first second, Holds base documents first ∧ Holds base others second ∧
      found = first + second := by
  induction documents generalizing found with
  | nil => exact ⟨0, found, .nil, holds, (zero_add found).symm⟩
  | cons document rest ih =>
    cases holds with
    | cons refers embedded frames behind =>
      obtain ⟨first, second, holdsFirst, holdsSecond, rfl⟩ := ih behind
      exact ⟨_, second, .cons refers embedded frames holdsFirst, holdsSecond,
        (add_assoc _ _ _).symm⟩

end Found

section Following

variable {Url : Type} {before after between : Observed} {message : String}

/-- Between two observations these references were met. -/
structure Met (before after : Observed) (found : Multiset (Url × ResourceKey)) : Prop where
  keys : after.embedded.keys = found.map Prod.snd + before.embedded.keys
  references : after.references = before.references + found.card

theorem Met.refl (observed : Observed) : Met observed observed (0 : Multiset (Url × ResourceKey)) :=
  ⟨by simp, by simp⟩

theorem Met.trans {first second : Multiset (Url × ResourceKey)}
    (early : Met before between first) (late : Met between after second) :
    Met before after (first + second) where
  keys := by rw [late.keys, early.keys, Multiset.map_add, ← add_assoc, add_comm (second.map _)]
  references := by rw [late.references, early.references, Multiset.card_add, add_assoc]

theorem met_countReference {key : ResourceKey} (url : Url)
    (counted : before.countReference = .ok between) :
    Met before { between with embedded := between.embedded.add key } {(url, key)} := by
  obtain ⟨-, same⟩ := of_failIf counted
  cases same
  exact ⟨by simp [Tally.keys_add], by simp⟩

theorem orReport_eq_ok {α : Type} {result : Checked OffprintError α}
    {value : α} (reported : orReport message result = .ok value) : result = .ok value := by
  cases result with
  | ok _ => exact reported
  | error _ | panic => cases reported

variable [UrlParser Url] [DataUrlReader Url] [StylesheetParser] [Sha256] [ArtifactCodec]
  {base : Url} {urls : List Url} {room : Nat}

omit [DataUrlReader Url] [StylesheetParser] [Sha256] [ArtifactCodec] in
theorem documentRefers_of_documentUrls (listed : documentUrls base document message = .ok urls) :
    DocumentRefers base document urls := by
  obtain ⟨found, reported, same⟩ := of_bind listed
  cases same
  exact ⟨found, orReport_eq_ok reported, rfl⟩

omit [DataUrlReader Url] [Sha256] in
theorem refers_of_nestedUrls {kind : NestedKind}
    (nested : nestedKind (normalizeMediaType mediaType) = some kind)
    (listed : nestedUrls base kind bytes = .ok urls) : Refers base mediaType bytes urls := by
  unfold Refers
  rw [nested]
  cases kind with
  | css =>
    unfold nestedUrls at listed
    cases decoded : Utf8.decode bytes with
    | none =>
      rw [decoded] at listed
      cases listed
    | some css =>
      rw [decoded] at listed
      obtain ⟨found, reported, same⟩ := of_bind listed
      cases same
      exact ⟨css, found, rfl, orReport_eq_ok reported, rfl⟩
  | svg | html =>
    obtain ⟨-, checked⟩ := of_failIf listed
    obtain ⟨_, -, urlsListed⟩ := of_bind checked
    exact documentRefers_of_documentUrls urlsListed

theorem validateEmbeddedResource_eq_ok {url : Url}
    (accepted : validateEmbeddedResource base room url before = .ok after) :
    ∃ mediaType bytes, readEmbedded url = .ok (mediaType, bytes) ∧
      let met := { before with embedded := before.embedded.add (keyOf mediaType bytes) }
      (nestedKind (normalizeMediaType mediaType) = none ∧ after = met) ∨
      ∃ left kind urls, room = left + 1 ∧
        nestedKind (normalizeMediaType mediaType) = some kind ∧
        nestedUrls base kind bytes = .ok urls ∧
        urls.foldlM (validateReference base left) met = .ok after := by
  unfold validateEmbeddedResource at accepted
  obtain ⟨⟨mediaType, bytes⟩, read, followed⟩ := of_bind accepted
  refine ⟨mediaType, bytes, read, ?_⟩
  dsimp only [keyOf] at followed
  cases nested : nestedKind (normalizeMediaType mediaType) with
  | none =>
    rw [nested] at followed
    cases followed
    exact .inl ⟨rfl, rfl⟩
  | some kind =>
    rw [nested] at followed
    cases room with
    | zero => cases followed
    | succ left =>
      obtain ⟨urls, listed, visited⟩ := of_bind followed
      exact .inr ⟨left, kind, urls, rfl, rfl, listed, visited⟩

/-- What following one reference meets, given what following the nested ones meets. -/
def FollowsReferences (base : Url) (room : Nat) : Prop :=
  ∀ (url : Url) (before after : Observed), validateReference base room before url = .ok after →
    ∃ found, Embedded base [url] found ∧ Met before after found

theorem FollowsReferences.all (follows : FollowsReferences base room)
    (accepted : urls.foldlM (validateReference base room) before = .ok after) :
    ∃ found, Embedded base urls found ∧ Met before after found := by
  induction urls generalizing before with
  | nil =>
    cases accepted
    exact ⟨0, .nil, .refl _⟩
  | cons url rest ih =>
    obtain ⟨between, first, others⟩ := of_bind accepted
    obtain ⟨foundFirst, embeddedFirst, metFirst⟩ := follows url before between first
    obtain ⟨found, embedded, met⟩ := ih others
    cases embeddedFirst with
    | cons read refers inside behind =>
      cases behind
      refine ⟨_, .cons read refers inside embedded, ?_⟩
      have both := metFirst.trans met
      rwa [add_zero, Multiset.cons_add] at both

theorem FollowsReferences.step
    (nestedFollow : ∀ left, room = left + 1 → FollowsReferences base left) :
    FollowsReferences base room := by
  intro url before after accepted
  obtain ⟨between, counted, followed⟩ := of_bind accepted
  obtain ⟨mediaType, bytes, read, ⟨plain, rfl⟩ | ⟨left, kind, urls, room, nested, listed, all⟩⟩ :=
    validateEmbeddedResource_eq_ok followed
  · have refers : Refers base mediaType bytes [] := by
      unfold Refers
      rw [plain]
    exact ⟨_, .cons read refers .nil .nil, met_countReference url counted⟩
  · obtain ⟨inner, inside, met⟩ := (nestedFollow left room).all all
    refine ⟨_, .cons read (refers_of_nestedUrls nested listed) inside .nil, ?_⟩
    have both := (met_countReference url counted).trans met
    rwa [Multiset.singleton_add, ← add_zero inner] at both

theorem followsReferences (room : Nat) : FollowsReferences base room := by
  induction room with
  | zero => exact .step fun left none => nomatch none
  | succ room ih =>
    apply FollowsReferences.step
    intro left same
    obtain rfl := Nat.succ.inj same
    exact ih

end Following

section Visiting

variable {attrs : List Attribute}

theorem frameSource_eq_ok {source : List Char} (accepted : frameSource attrs = .ok source) :
    attributeValue attrs "srcdoc" = some source := by
  obtain ⟨-, accepted⟩ := of_failIf accepted
  obtain ⟨-, accepted⟩ := of_failIf accepted
  cases found : attributeValue attrs "srcdoc" with
  | none =>
    rw [found] at accepted
    cases accepted
  | some other =>
    rw [found] at accepted
    cases accepted
    rfl

variable [ArtifactCodec] {manifestFrames : Nat} {frames : Frames} {document : Document}
  {after : Frames}

theorem collectFrame_eq_ok (accepted : collectFrame manifestFrames frames attrs = .ok after) :
    ∃ source, attributeValue attrs "srcdoc" = some source ∧
      after.pending = frameDocument source :: frames.pending ∧
      after.count = frames.count + 1 ∧ after.count ≤ manifestFrames := by
  obtain ⟨source, sourced, accepted⟩ := of_bind accepted
  obtain ⟨id, -, accepted⟩ := of_bind accepted
  obtain ⟨-, accepted⟩ := of_failIf accepted
  obtain ⟨-, accepted⟩ := of_failIf accepted
  obtain ⟨within, accepted⟩ := of_failIf accepted
  cases accepted
  exact ⟨source, frameSource_eq_ok sourced, rfl, rfl, not_lt.mp within⟩

theorem collectFrames_eq_ok (accepted : collectFrames document manifestFrames frames = .ok after) :
    after.pending = (frameDocuments document).reverse ++ frames.pending ∧
      after.count = frames.count + (frameDocuments document).length ∧
      (after.count ≤ manifestFrames ∨ after.count = frames.count) := by
  unfold collectFrames at accepted
  unfold frameDocuments
  generalize document.walk = ids at accepted ⊢
  induction ids generalizing frames with
  | nil =>
    cases accepted
    simp
  | cons id rest ih =>
    obtain ⟨between, first, others⟩ := of_bind accepted
    obtain ⟨pending, count, within⟩ := ih others
    rw [filterMap_cons]
    dsimp only at first
    cases element : document.element? id with
    | none =>
      rw [element] at first
      cases first
      exact ⟨pending, count, within⟩
    | some element' =>
      obtain ⟨name, attrs⟩ := element'
      rw [element] at first
      by_cases frame : isFrameElement name = true
      · simp only [frame, if_true] at first
        obtain ⟨source, sourced, onStack, counted, below⟩ := collectFrame_eq_ok first
        simp only [Option.bind_some, frame, if_true, sourced, Option.map_some,
          reverse_cons, append_assoc, length_cons]
        refine ⟨by rw [pending, onStack]; rfl, by omega, by omega⟩
      · simp only [frame] at first
        cases first
        simp only [Option.bind_some, frame]
        exact ⟨pending, count, within⟩

variable {Url : Type} [UrlParser Url] [DataUrlReader Url] [StylesheetParser] [Sha256]
variable [OwnedScripts] {base : Url} {manifest : ArtifactManifest} {restoreState : Bool}
  {visit : Visit}

theorem visitDocument_eq_ok {after : Visit}
    (accepted : visitDocument manifest restoreState base visit document = .ok after) :
    ∃ urls, DocumentRefers base document urls ∧
      collectFrames document manifest.frames visit.frames = .ok after.frames ∧
      urls.foldlM (validateReference base maximumNesting) visit.observed = .ok after.observed := by
  obtain ⟨_, -, accepted⟩ := of_bind accepted
  obtain ⟨repaired, -, accepted⟩ := of_bind accepted
  obtain ⟨restores, -, accepted⟩ := of_bind accepted
  obtain ⟨-, accepted⟩ := of_failIf accepted
  obtain ⟨_, -, accepted⟩ := of_bind accepted
  obtain ⟨_, -, accepted⟩ := of_bind accepted
  obtain ⟨frames, collected, accepted⟩ := of_bind accepted
  obtain ⟨urls, listed, accepted⟩ := of_bind accepted
  obtain ⟨observed, followed, accepted⟩ := of_bind accepted
  cases accepted
  exact ⟨urls, documentRefers_of_documentUrls listed, collected, followed⟩

theorem visitDocuments_eq_ok {room : Nat} {after : Visit}
    (accepted : visitDocuments manifest restoreState base room visit = .ok after) :
    ∃ found, Holds base visit.frames.pending found ∧ Met visit.observed after.observed found := by
  induction room generalizing visit with
  | zero =>
    unfold visitDocuments at accepted
    cases pending : visit.frames.pending with
    | nil =>
      rw [pending] at accepted
      cases accepted
      exact ⟨0, .nil, .refl _⟩
    | cons document rest =>
      rw [pending] at accepted
      cases accepted
  | succ room ih =>
    unfold visitDocuments at accepted
    cases pending : visit.frames.pending with
    | nil =>
      rw [pending] at accepted
      cases accepted
      exact ⟨0, .nil, .refl _⟩
    | cons document rest =>
      rw [pending] at accepted
      obtain ⟨between, first, others⟩ := of_bind accepted
      obtain ⟨urls, refers, collected, followed⟩ := visitDocument_eq_ok first
      obtain ⟨here, embedded, metHere⟩ := (followsReferences maximumNesting).all followed
      obtain ⟨found, holds, met⟩ := ih others
      rw [(collectFrames_eq_ok collected).1] at holds
      obtain ⟨inside, behind, holdsFrames, holdsRest, rfl⟩ := holds.of_append
      refine ⟨_, .cons refers embedded (holdsFrames.perm (reverse_perm _)) holdsRest, ?_⟩
      have both := metHere.trans met
      rwa [← add_assoc] at both

theorem visitDocuments_room {room : Nat}
    (enough : visit.frames.pending.length + (manifest.frames - visit.frames.count) ≤ room) :
    visitDocuments manifest restoreState base (room + 1) visit =
      visitDocuments manifest restoreState base room visit := by
  induction room generalizing visit with
  | zero =>
    have none : visit.frames.pending = [] := eq_nil_of_length_eq_zero (by omega)
    unfold visitDocuments
    rw [none]
  | succ room ih =>
    conv_lhs => unfold visitDocuments
    conv_rhs => unfold visitDocuments
    cases pending : visit.frames.pending with
    | nil => rfl
    | cons document rest =>
      dsimp only
      cases first : visitDocument manifest restoreState base
          { visit with frames := { visit.frames with pending := rest } } document with
      | error _ => rfl
      | panic => rfl
      | ok between =>
        obtain ⟨urls, -, collected, -⟩ := visitDocument_eq_ok first
        obtain ⟨onStack, counted, within⟩ := collectFrames_eq_ok collected
        apply ih
        rw [pending] at enough
        simp only [length_cons] at enough
        simp only [onStack, length_append, length_reverse]
        simp only at counted within
        omega

theorem visitDocuments_start (some : 0 < manifest.frames) (extra : Nat) :
    visitDocuments manifest restoreState base (manifest.frames + extra) (start document) =
      visitDocuments manifest restoreState base manifest.frames (start document) := by
  induction extra with
  | zero => rfl
  | succ extra ih =>
    rw [← ih]
    apply visitDocuments_room
    change 1 + (manifest.frames - 1) ≤ manifest.frames + extra
    omega

end Visiting
end Offprint.Html
