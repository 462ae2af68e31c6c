/-
  The row of a raw listing under publishes, marks and delists that overlap.

  `publish_listing` checks the status before the marketplace's create call and writes
  the row after it, whatever has happened to the row meanwhile: publishes that overlap
  create a listing each, and one that comes back late lists a delisted row again
  (`publishes_overlap`).  Where the check still holds when it is acted on, one listing
  at most is created and the row only moves on (`publish_once`).
-/
import AimData.Dataset.Record
import AimData.Lib.Except
import AimData.Lib.Run

namespace AimData

namespace RawListings

/-! ## Rows -/

inductive Status where
  | draft
  | listed
  | delisted
  deriving DecidableEq, Repr

/-- The columns of a row of `raw_listings` that the calls here read or write. -/
structure RawListing where
  id : String
  rawFileId : String
  marketplaceListingId : Option String
  status : Status
  publishedAt : Option ℚ
  updatedAt : ℚ
  deriving DecidableEq

/-- `create_listing` -/
def createListing (id rawFileId : String) (now : ℚ) : RawListing where
  id := id
  rawFileId := rawFileId
  marketplaceListingId := none
  status := .draft
  publishedAt := none
  updatedAt := now

/-- The row of a listing id, if it is there and may be published. -/
def publishable (listingId : String) : Option RawListing → Except Raised RawListing
  | none => raise "FileNotFoundError" s!"Listing not found: {listingId}"
  | some listing =>
    match listing.status with
    | .listed => raise "ValueError" "Listing is already published"
    | .delisted => raise "ValueError" "Cannot publish a delisted listing"
    | .draft => .ok listing

def RawListing.publish (listing : RawListing) (marketplaceListingId : String) (now : ℚ) :
    RawListing :=
  { listing with
    marketplaceListingId := some marketplaceListingId
    status := .listed
    publishedAt := some now
    updatedAt := now }

def markListingPublished (listingId marketplaceListingId : String) (now : ℚ)
    (row : Option RawListing) : Except Raised RawListing := do
  let listing ← publishable listingId row
  return listing.publish marketplaceListingId now

def delistListing (listingId : String) (now : ℚ) : Option RawListing → Except Raised RawListing
  | none => raise "FileNotFoundError" s!"Listing not found: {listingId}"
  | some listing =>
    if listing.status ≠ .listed then raise "ValueError" "Only listed listings can be delisted"
    else .ok { listing with status := .delisted, updatedAt := now }

/-! ## The create call -/

/-- What `client.post` comes back with; `body` is what `response.json()` returns or raises. -/
inductive Reply where
  | timeout
  | requestError
  | response (statusCode : ℕ) (body : Except Raised Json) (text : String)

/-- The name of a value's Python type. -/
def typeName : Json → String
  | .null => "NoneType"
  | .bool _ => "bool"
  | .int _ => "int"
  | .float _ => "float"
  | .str _ => "str"
  | .arr _ => "list"
  | .obj _ => "dict"

/-- `body.get(a) or body.get(b)` -/
def getOr (a b : String) (fields : List (String × Json)) : Option Json :=
  if Dataset.truthy (fields.lookup a) then fields.lookup a else fields.lookup b

section

variable (str : Json → String)

/-- The detail of a refusal. -/
def refusalDetail (body : Except Raised Json) (text : String) : String :=
  let detail := "ai.market publish failed."
  match body with
  | .ok (.obj fields) =>
    match getOr "detail" "message" fields with
    | some value => if Dataset.truthy (some value) then str value else detail
    | none => detail
  | .ok _ => detail
  | .error _ => if text ≠ "" then String.ofList (text.toList.take 300) else detail

def missingId : Except Raised String :=
  raise "MarketplacePublishError"
    "ai.market created the listing but did not return a listing id."

/-- The id of the listing that the marketplace says it has created. -/
def createdId : Except Raised Json → Except Raised String
  | .error e => .error e
  | .ok (.obj fields) =>
    match getOr "id" "listing_id" fields with
    | some marketplaceId =>
      if Dataset.truthy (some marketplaceId) then .ok (str marketplaceId) else missingId
    | none => missingId
  | .ok value => raise "AttributeError" s!"'{typeName value}' object has no attribute 'get'"

/-- The end of `_create_marketplace_listing`, from the reply on. -/
def createMarketplaceListing : Reply → Except Raised String
  | .timeout => raise "MarketplaceConnectionError" "Timed out while publishing to ai.market."
  | .requestError =>
    raise "MarketplaceConnectionError" "Could not reach ai.market while publishing."
  | .response statusCode body text =>
    if statusCode = 201 then createdId str body
    else if statusCode = 401 ∨ statusCode = 403 then
      raise "MarketplaceAuthError" "ai.market rejected publish; reconnect your account."
    else
      raise "MarketplacePublishError"
        s!"{refusalDetail str body text} (ai.market status {statusCode})"

end

/-- `publish_listing` up to its create call; `rawFile` says whether the file has a row. -/
def publishListing (listingId : String) (rawFile : Bool) (token : Option String)
    (row : Option RawListing) : Except Raised Unit := do
  let listing ← publishable listingId row
  if ¬ rawFile then raise "FileNotFoundError" s!"Raw file not found: {listing.rawFileId}"
  else if token = none ∨ token = some "" then
    raise "MarketplaceNotConnectedError" "Log in to ai.market before publishing this listing."
  else return ()

/-! ## Calls that overlap -/

/-- How far a publish is: its create call waits at the marketplace, or has been granted
    there, or `publish_listing` has ended with the id in the row or without. -/
inductive Phase where
  | idle
  | asked
  | granted
  | recorded
  | failed
  deriving DecidableEq

/-- The row, the publishes by their number, and those that the marketplace has created
    a listing for. -/
structure World where
  listingId : String
  row : Option RawListing
  publishes : ℕ → Phase
  created : List ℕ

/-- What happens next.  The marketplace creates a listing at any time after it is asked
    to, and the reply comes at any time; `commits` says whether the database takes the
    write. -/
inductive Event where
  | publish (call : ℕ) (rawFile : Bool) (token : Option String)
  | create (call : ℕ)
  | resume (call : ℕ) (reply : Reply) (now : ℚ) (commits : Bool)
  | markPublished (marketplaceListingId : String) (now : ℚ) (commits : Bool)
  | delist (now : ℚ) (commits : Bool)

/-- A committed write of the row, unless the call has raised. -/
def written (row : Option RawListing) (commits : Bool) :
    Except Raised RawListing → Option RawListing
  | .ok listing => if commits then some listing else row
  | .error _ => row

def World.setPhase (w : World) (call : ℕ) (phase : Phase) : World :=
  { w with publishes := Function.update w.publishes call phase }

/-- The rest of `publish_listing`: the columns are written over the row as it now is. -/
def World.finish (w : World) (call : ℕ) (id : Except Raised String) (now : ℚ) (commits : Bool) :
    World :=
  match id with
  | .error _ => w.setPhase call .failed
  | .ok marketplaceListingId =>
    if commits then
      { w.setPhase call .recorded with
        row := w.row.map (RawListing.publish · marketplaceListingId now) }
    else w.setPhase call .failed

section

variable (str : Json → String)

def step (w : World) : Event → Option World
  | .publish call rawFile token =>
    if w.publishes call ≠ .idle then none
    else
      match publishListing w.listingId rawFile token w.row with
      | .ok _ => some (w.setPhase call .asked)
      | .error _ => some (w.setPhase call .failed)
  | .create call =>
    if w.publishes call = .asked then
      some { w.setPhase call .granted with created := call :: w.created }
    else none
  | .resume call reply now commits =>
    if w.publishes call = .asked ∨ w.publishes call = .granted then
      some (w.finish call (createMarketplaceListing str reply) now commits)
    else none
  | .markPublished marketplaceListingId now commits =>
    let marked := markListingPublished w.listingId marketplaceListingId now w.row
    some { w with row := written w.row commits marked }
  | .delist now commits =>
    some { w with row := written w.row commits (delistListing w.listingId now w.row) }

def Step (w : World) (e : Event) (w' : World) : Prop := step str w e = some w'

end

/-- The listing as `create_listing` has left it, or with no call in flight since. -/
structure Quiet (w : World) : Prop where
  idle : ∀ call, w.publishes call = .idle
  created : w.created = []
  row : ∀ listing, w.row = some listing →
    (listing.status = .draft ↔ listing.marketplaceListingId = none)

/-! ## What holds of a publish that is not disturbed -/

/-- The row moves on from `draft` to `listed` to `delisted`, and keeps its id once it has
    one. -/
inductive Advances : Option RawListing → Option RawListing → Prop
  | missing : Advances none none
  | kept {l l' : RawListing} : l'.status = l.status →
    l'.marketplaceListingId = l.marketplaceListingId → Advances (some l) (some l')
  | listed {l l' : RawListing} : l.status = .draft → l.marketplaceListingId = none →
    l'.status = .listed → Advances (some l) (some l')
  | delisted {l l' : RawListing} : l.status = .listed → l'.status = .delisted →
    l'.marketplaceListingId = l.marketplaceListingId → Advances (some l) (some l')

/-- One listing at most has been created, and the step has moved the row on. -/
def Orderly (w w' : World) : Prop := w'.created.length ≤ 1 ∧ Advances w.row w'.row

def World.Draft (w : World) : Prop := ∃ listing, w.row = some listing ∧ listing.status = .draft

/-- What the check of a publish has found still holds where the publish acts on it: the row
    is a draft when the marketplace creates a listing and when the id is written, and no
    listing that another publish has created is missing in the row. -/
def Undisturbed (str : Json → String) (w : World) : Event → Prop
  | .create _ => w.Draft ∧ ∀ call ∈ w.created, w.publishes call = .recorded
  | .resume _ reply _ commits =>
    (∃ id, createMarketplaceListing str reply = .ok id) → commits = true → w.Draft
  | _ => True

/-! ## One step -/

section

variable {str : Json → String} {w w' : World} {e : Event}

/-- A recorded id is in the row, and a row without an id is a draft. -/
structure Inv (w : World) : Prop where
  recorded : ∀ call, w.publishes call = .recorded → ¬ w.Draft
  row : ∀ listing, w.row = some listing →
    (listing.status = .draft ↔ listing.marketplaceListingId = none)

theorem Quiet.inv (h : Quiet w) : Inv w := by
  refine ⟨?_, h.row⟩
  intro call hrecorded
  rw [h.idle call] at hrecorded
  cases hrecorded

theorem Advances.refl : ∀ row : Option RawListing, Advances row row
  | none => .missing
  | some _ => .kept rfl rfl

theorem publishable_ok {listingId : String} {row : Option RawListing} {listing : RawListing}
    (h : publishable listingId row = .ok listing) :
    row = some listing ∧ listing.status = .draft := by
  rcases row with _ | l
  · cases h
  · rcases hstatus : l.status with _ | _ | _ <;> simp only [publishable, hstatus] at h
    · cases h
      exact ⟨rfl, hstatus⟩
    · cases h
    · cases h

/-- A mark is written over a draft only. -/
theorem markListingPublished_ok {listingId id : String} {now : ℚ} {row : Option RawListing}
    {listing : RawListing} (h : markListingPublished listingId id now row = .ok listing) :
    ∃ l, row = some l ∧ l.status = .draft ∧ listing = l.publish id now := by
  obtain ⟨l, hl, heq⟩ := Except.bind_eq_ok.1 h
  obtain ⟨hrow, hstatus⟩ := publishable_ok hl
  cases heq
  exact ⟨l, hrow, hstatus, rfl⟩

theorem delistListing_ok {listingId : String} {now : ℚ} {row : Option RawListing}
    {listing : RawListing} (h : delistListing listingId now row = .ok listing) :
    ∃ l, row = some l ∧ l.status = .listed ∧
      listing = { l with status := .delisted, updatedAt := now } := by
  rcases row with _ | l
  · cases h
  · rw [delistListing] at h
    split_ifs at h with hstatus
    · cases h
    · cases h
      exact ⟨l, rfl, not_not.1 hstatus, rfl⟩

/-- The row after a write is the row before or what the call has made of it. -/
theorem written_cases (row : Option RawListing) (commits : Bool) (r : Except Raised RawListing) :
    written row commits r = row ∨
      ∃ listing, r = .ok listing ∧ written row commits r = some listing := by
  rcases r with _ | listing
  · exact Or.inl rfl
  · cases commits with
    | false => exact Or.inl rfl
    | true => exact Or.inr ⟨listing, rfl, rfl⟩

/-- How a step changes the row: not at all, from a draft to a listing, from a listing to a
    delisted one, or by the write of a publish. -/
inductive RowStep (str : Json → String) (w : World) : Event → Option RawListing → Prop
  | same (e : Event) : RowStep str w e w.row
  | lists {e : Event} {l : RawListing} {id : String} {now : ℚ} : w.row = some l →
    l.status = .draft → RowStep str w e (some (l.publish id now))
  | delists {e : Event} {l : RawListing} {now : ℚ} : w.row = some l → l.status = .listed →
    RowStep str w e (some { l with status := .delisted, updatedAt := now })
  | writes {call : ℕ} {reply : Reply} {now : ℚ} {id : String} :
    createMarketplaceListing str reply = .ok id →
    RowStep str w (.resume call reply now true) (w.row.map (RawListing.publish · id now))

theorem step_row (h : Step str w e w') : RowStep str w e w'.row := by
  cases e with
  | publish call rawFile token =>
    rw [Step, step] at h
    split_ifs at h with hidle
    split at h <;> cases h <;> exact .same _
  | create call =>
    rw [Step, step] at h
    split_ifs at h with hasked
    cases h
    exact .same _
  | resume call reply now commits =>
    rw [Step, step] at h
    split_ifs at h with hphase
    cases h
    rcases hid : createMarketplaceListing str reply with _ | id
    · exact .same _
    · cases commits with
      | false => exact .same _
      | true => exact .writes hid
  | markPublished id now commits =>
    cases h
    dsimp only
    rcases written_cases w.row commits (markListingPublished w.listingId id now w.row)
      with hw | ⟨listing, hok, hw⟩ <;> rw [hw]
    · exact .same _
    · obtain ⟨l, hrow, hstatus, rfl⟩ := markListingPublished_ok hok
      exact .lists hrow hstatus
  | delist now commits =>
    cases h
    dsimp only
    rcases written_cases w.row commits (delistListing w.listingId now w.row)
      with hw | ⟨listing, hok, hw⟩ <;> rw [hw]
    · exact .same _
    · obtain ⟨l, hrow, hstatus, rfl⟩ := delistListing_ok hok
      exact .delists hrow hstatus

/-- No step makes a draft of another row, and its new ids come with a status. -/
theorem RowStep.draft {row : Option RawListing} (h : RowStep str w e row) {l : RawListing}
    (hl : row = some l) (hdraft : l.status = .draft) : w.row = some l := by
  cases h with
  | same => exact hl
  | lists => cases hl; cases hdraft
  | delists => cases hl; cases hdraft
  | writes hid =>
    rcases hrow : w.row with _ | l'
    · rw [hrow] at hl
      cases hl
    · rw [hrow] at hl
      cases hl
      cases hdraft

theorem RowStep.row {row : Option RawListing} (h : RowStep str w e row) (hinv : Inv w)
    {l : RawListing} (hl : row = some l) : l.status = .draft ↔ l.marketplaceListingId = none := by
  cases h with
  | same => exact hinv.row l hl
  | lists =>
    cases hl
    simp [RawListing.publish]
  | @delists e l' now hrow hstatus =>
    cases hl
    have hid : l'.marketplaceListingId ≠ none := by
      rw [ne_eq, ← hinv.row l' hrow, hstatus]
      decide
    simp [hid]
  | writes hid =>
    rcases hrow : w.row with _ | l'
    · rw [hrow] at hl
      cases hl
    · rw [hrow] at hl
      cases hl
      simp [RawListing.publish]

/-- An undisturbed step moves the row on. -/
theorem RowStep.advances {row : Option RawListing} (h : RowStep str w e row) (hinv : Inv w)
    (hok : Undisturbed str w e) : Advances w.row row := by
  cases h with
  | same => exact .refl _
  | @lists e l id now hrow hstatus =>
    rw [hrow]
    exact .listed hstatus ((hinv.row l hrow).1 hstatus) rfl
  | @delists e l now hrow hstatus =>
    rw [hrow]
    exact .delisted hstatus rfl rfl
  | @writes call reply now id hid =>
    obtain ⟨l, hrow, hstatus⟩ := hok ⟨id, hid⟩ rfl
    rw [hrow]
    exact .listed hstatus ((hinv.row l hrow).1 hstatus) rfl

/-- A publish is recorded with its id in the row. -/
theorem step_recorded (h : Step str w e w') {call : ℕ} (hrec : w'.publishes call = .recorded) :
    w.publishes call = .recorded ∨ ∀ l, w'.row = some l → l.status = .listed := by
  have hupdate {c : ℕ} {phase : Phase} (hne : phase ≠ .recorded)
      (hrec : Function.update w.publishes c phase call = .recorded) :
      w.publishes call = .recorded := by
    by_cases hc : call = c
    · rw [hc, Function.update_self] at hrec
      exact absurd hrec hne
    · rwa [Function.update_of_ne hc] at hrec
  cases e with
  | publish c rawFile token =>
    rw [Step, step] at h
    split_ifs at h with hidle
    split at h <;> cases h <;> exact Or.inl (hupdate (by decide) hrec)
  | create c =>
    rw [Step, step] at h
    split_ifs at h with hasked
    cases h
    exact Or.inl (hupdate (by decide) hrec)
  | resume c reply now commits =>
    rw [Step, step] at h
    split_ifs at h with hphase
    cases h
    rcases hid : createMarketplaceListing str reply with _ | id <;> rw [hid] at hrec
    · exact Or.inl (hupdate (by decide) hrec)
    · cases commits with
      | false => exact Or.inl (hupdate (by decide) hrec)
      | true =>
        right
        intro l hl
        rw [World.finish] at hl
        obtain ⟨l', -, rfl⟩ := Option.map_eq_some_iff.1 hl
        rfl
  | markPublished id now commits =>
    cases h
    exact Or.inl hrec
  | delist now commits =>
    cases h
    exact Or.inl hrec

/-- Listings are created by the marketplace's own step. -/
theorem step_created (h : Step str w e w') :
    w'.created = w.created ∨ ∃ call, e = .create call ∧ w'.created = call :: w.created := by
  cases e with
  | publish c rawFile token =>
    rw [Step, step] at h
    split_ifs at h with hidle
    split at h <;> cases h <;> exact Or.inl rfl
  | create c =>
    rw [Step, step] at h
    split_ifs at h with hasked
    cases h
    exact Or.inr ⟨c, rfl, rfl⟩
  | resume c reply now commits =>
    rw [Step, step] at h
    split_ifs at h with hphase
    cases h
    rcases hid : createMarketplaceListing str reply with _ | id
    · exact Or.inl rfl
    · cases commits <;> exact Or.inl rfl
  | markPublished id now commits =>
    cases h
    exact Or.inl rfl
  | delist now commits =>
    cases h
    exact Or.inl rfl

theorem Inv.step (hinv : Inv w) (h : Step str w e w') : Inv w' := by
  have hrow := step_row h
  refine ⟨?_, fun l hl => hrow.row hinv hl⟩
  rintro call hrec ⟨l, hl, hdraft⟩
  rcases step_recorded h hrec with hbefore | hlisted
  · exact hinv.recorded call hbefore ⟨l, hrow.draft hl hdraft, hdraft⟩
  · rw [hlisted l hl] at hdraft
    cases hdraft

theorem orderly_step (hinv : Inv w) (hone : w.created.length ≤ 1) (h : Step str w e w')
    (hok : Undisturbed str w e) : Orderly w w' := by
  refine ⟨?_, (step_row h).advances hinv hok⟩
  rcases step_created h with hsame | ⟨call, rfl, hcreated⟩
  · rw [hsame]
    exact hone
  · obtain ⟨hdraft, hrecorded⟩ := hok
    have hnone : w.created = [] := by
      refine List.eq_nil_iff_forall_not_mem.2 ?_
      intro c hc
      exact hinv.recorded c (hrecorded c hc) hdraft
    rw [hcreated, hnone]
    exact le_rfl

end

/-! ## Runs -/

/-- `str` of the ids that the marketplace sends. -/
def idText : Json → String
  | .str s => s
  | _ => ""

/-- The answer to a create call that has succeeded. -/
def createdReply (id : String) : Reply := .response 201 (.ok (.obj [("id", .str id)])) ""

/-- A listing that has just been created, and no call. -/
def draftWorld : World where
  listingId := "l"
  row := some (createListing "l" "f" 0)
  publishes := fun _ => .idle
  created := []

theorem quiet_draftWorld : Quiet draftWorld :=
  ⟨fun _ => rfl, rfl, by rintro _ ⟨⟩; exact ⟨fun _ => rfl, fun _ => rfl⟩⟩

theorem draft_draftWorld (publishes : ℕ → Phase) (created : List ℕ) :
    World.Draft { draftWorld with publishes := publishes, created := created } := ⟨_, rfl, rfl⟩

/-- **Publishes that are not disturbed create one listing at most, and every step moves the
    row on**: its id stays once it is set, and its status goes from draft to listed to
    delisted. -/
theorem publish_once {str : Json → String} {w w' : World} {es : List Event}
    (h : Run (fun w e w' => Step str w e w' ∧ Undisturbed str w e) w es w') (hw : Quiet w) :
    Run (fun w e w' => Step str w e w' ∧ Orderly w w') w es w' := by
  refine h.mono (I := fun w => Inv w ∧ w.created.length ≤ 1) ?_ ⟨hw.inv, ?_⟩
  · rintro s e s' ⟨hinv, hone⟩ ⟨hstep, hok⟩
    have horderly := orderly_step hinv hone hstep hok
    exact ⟨⟨hinv.step hstep, horderly.1⟩, hstep, horderly⟩
  · rw [hw.created]
    exact Nat.zero_le 1

/-- A publish, its create call and its reply. -/
theorem publish_once_published :
    ∃ w, Run (fun w e w' => Step idText w e w' ∧ Orderly w w') draftWorld
      [.publish 0 true (some "t"), .create 0, .resume 0 (createdReply "m1") 1 true] w ∧
      w.row = some ((createListing "l" "f" 0).publish "m1" 1) := by
  refine ⟨_, publish_once (.cons ⟨rfl, trivial⟩ (.cons ⟨rfl, ?_, ?_⟩ (.cons ⟨rfl, ?_⟩ .nil)))
    quiet_draftWorld, rfl⟩
  · exact draft_draftWorld _ _
  · simp [draftWorld, World.setPhase]
  · exact fun _ _ => draft_draftWorld _ _

/-- The world once the first of two publishes has come back and its listing is delisted. -/
def delistedWorld : World :=
  { ((((draftWorld.setPhase 0 .asked).setPhase 1 .asked).setPhase 0 .granted).setPhase 1
      .granted).setPhase 0 .recorded with
    row := some { (createListing "l" "f" 0).publish "m1" 1 with
      status := .delisted
      updatedAt := 2 }
    created := [1, 0] }

/-- Both publishes pass the check before either comes back.  Two listings are created, and
    the second reply lists the delisted row again, under another id. -/
theorem publishes_overlap : Quiet draftWorld ∧
    Run (Step idText) draftWorld
      [.publish 0 true (some "t"), .publish 1 true (some "t"), .create 0, .create 1,
        .resume 0 (createdReply "m1") 1 true, .delist 2 true] delistedWorld ∧
    Step idText delistedWorld (.resume 1 (createdReply "m2") 3 true)
      (delistedWorld.finish 1 (.ok "m2") 3 true) ∧
    ¬ Orderly delistedWorld (delistedWorld.finish 1 (.ok "m2") 3 true) ∧
    delistedWorld.created = [1, 0] ∧
    delistedWorld.row.map (fun l => (l.status, l.marketplaceListingId)) =
      some (.delisted, some "m1") ∧
    (delistedWorld.finish 1 (.ok "m2") 3 true).row.map
      (fun l => (l.status, l.marketplaceListingId)) = some (.listed, some "m2") := by
  refine ⟨quiet_draftWorld, .cons rfl (.cons rfl (.cons rfl (.cons rfl (.cons rfl
    (.cons rfl .nil))))), rfl, ?_, rfl, rfl, rfl⟩
  rintro ⟨hone, -⟩
  exact absurd hone (by decide)

end RawListings

end AimData
