import Autobackup.Abc2.Documents
import Mathlib.Data.Rat.Lemmas

/-!
# The API that hands out the current ad of a campaign

A connection of `GetTodaysAdSlotServerClientConnection` reads the campaign's cache document (or,
where there is none, the campaign and its owner's profile), goes up through the slots from the
cached one to the one that is current, counts the request, reads the ad, and stores the cache
document again, without a CAS.  The response is sent as soon as that store is in the backend's
queue.

What is sent goes to `apiResponses`, a log the source does not have.  Responses without an ad (no
ad, an error, a refusal) end the connection and are not recorded.  The parsing of the HTTP request
is left out.
-/

namespace Autobackup.Abc2

/-- `…_MAX_API_REQUESTS_PER_AD_SLOT_DURATION_EXCLUDING_NO_AD_RESPONSES_OFC` -/
def maxApiRequestsPerAdSlotDuration : ℕ := 50

/-- `…_SECONDS_BEFORE_ACTUAL_EXPIRE_DATETIME_TO_SERVE_THE_NEXT_AD_SLOT` -/
def secondsBeforeActualExpireDateTime : ℤ := 30

/-- What the connection waits for. -/
inductive TodaysAdSlotStage
  /-- A request. -/
  | handleClientReadyRead
  | getAdCampaignCurrentSlotCacheIfExists
  | getAdCampaignDocItselfToGetSlotLengthHours
  | getAdCampaignOwnersProfileJustToGetApiKey
  | getAdCampaignSlot
  | getAdCampaignSlotFiller (slotFilledWith : SlotFillerKey)
  /-- The new cache document is in the queue, and the response is about to be sent. -/
  | sendResponse
  | createOrUpdateAdCampaignCurrentSlotCache
  | closed
  deriving DecidableEq, Repr, Inhabited

/-- `GetTodaysAdSlotServerClientConnection` -/
structure TodaysAdSlot where
  campaignRequested : CampaignKey := default
  apiKeyRequested : String := ""
  foundAdCampaignCurrentSlotCacheDoc : Bool := false
  numApiRequestsForThisAdSlotSoFar : ℕ := 0
  firstSlotIndexToTry : ℕ := 0
  currentSlotIndexToTry : ℕ := 0
  slotLengthHours : ℚ := 0
  theCorrectApiKey : String := ""
  currentAdSlotExpireDateTime : ℚ := 0
  /-- The CAS of the cache document when it was read, zero where there was none.  The source does
  not keep it, and nothing depends on it. -/
  cacheCas : ℕ := 0
  stage : TodaysAdSlotStage := .handleClientReadyRead
  deriving DecidableEq, Repr, Inhabited

inductive TodaysAdSlotInput
  | handleClientReadyRead (campaignRequested : CampaignKey) (apiKeyRequested : String)
  /-- The outstanding request is performed, and its callback runs at this time of day. -/
  | proceed (currentDateTime : ℤ)
  /-- The outstanding request is not performed and reports a database error. -/
  | dbError
  | disconnected
  deriving DecidableEq, Repr

namespace TodaysAdSlot

/-- A response without an ad, or no response at all. -/
def close (s : TodaysAdSlot) : TodaysAdSlot := { s with stage := .closed }

def haveSlotLengthHoursAndApiKeyAndKnowFirstSlotIndexToTrySoTry (s : TodaysAdSlot) : TodaysAdSlot :=
  if s.apiKeyRequested ≠ s.theCorrectApiKey then s.close
  else { s with currentSlotIndexToTry := s.firstSlotIndexToTry, stage := .getAdCampaignSlot }

def continueAtJustFinishedAttemptingToGetAdCampaignCurrentSlotCache (s : TodaysAdSlot) :
    Option (ℕ × CampaignSlotCacheDoc) → TodaysAdSlot
  | none =>
      { s with
        firstSlotIndexToTry := 0
        foundAdCampaignCurrentSlotCacheDoc := false
        numApiRequestsForThisAdSlotSoFar := 1
        cacheCas := 0
        stage := .getAdCampaignDocItselfToGetSlotLengthHours }
  | some (cas, doc) =>
      { s with
        foundAdCampaignCurrentSlotCacheDoc := true
        numApiRequestsForThisAdSlotSoFar := doc.numApiRequestsForCurrentSlot
        firstSlotIndexToTry := doc.currentSlot
        slotLengthHours := doc.slotLengthHours
        theCorrectApiKey := doc.apiKey
        cacheCas := cas }.haveSlotLengthHoursAndApiKeyAndKnowFirstSlotIndexToTrySoTry

/-- A slot length that is no whole number does not convert. -/
def continueAtJustFinishedAttemptingToGetAdCampaign (s : TodaysAdSlot) :
    Option (ℕ × CampaignDoc) → TodaysAdSlot
  | none => s.close
  | some (_, doc) =>
      if doc.slotLengthHours.isInt then
        { s with
          slotLengthHours := doc.slotLengthHours
          stage := .getAdCampaignOwnersProfileJustToGetApiKey }
      else s.close

def continueAtJustFinishedAttemptingToGetCampaignOwnersProfileDoc (s : TodaysAdSlot) :
    Option (ℕ × UserAccount) → TodaysAdSlot
  | none => s.close
  | some (_, doc) =>
      { s with theCorrectApiKey := doc.apiKey
        }.haveSlotLengthHoursAndApiKeyAndKnowFirstSlotIndexToTrySoTry

/-- A start that is no whole number does not convert. -/
def continueAtJustFinishedAttemptingToGetAdCampaignSlot (s : TodaysAdSlot) (now : ℤ) :
    Option (ℕ × SlotDoc) → TodaysAdSlot
  | none => s.close
  | some (_, doc) =>
      if ¬ doc.startTimestamp.isInt then s.close
      else
        let s :=
          { s with currentAdSlotExpireDateTime := doc.startTimestamp + 3600 * s.slotLengthHours }
        let currentDateTime : ℚ := now + secondsBeforeActualExpireDateTime
        if doc.startTimestamp ≤ currentDateTime ∧ currentDateTime < s.currentAdSlotExpireDateTime
        then
          -- the quota is that of the cached slot; the first request for a later one is always
          -- served
          if s.foundAdCampaignCurrentSlotCacheDoc ∧
              s.firstSlotIndexToTry = s.currentSlotIndexToTry then
            let s :=
              { s with
                numApiRequestsForThisAdSlotSoFar := s.numApiRequestsForThisAdSlotSoFar + 1 }
            if s.numApiRequestsForThisAdSlotSoFar > maxApiRequestsPerAdSlotDuration then s.close
            else { s with stage := .getAdCampaignSlotFiller doc.slotFilledWith }
          else { s with stage := .getAdCampaignSlotFiller doc.slotFilledWith }
        -- expired, or not begun: both lead to the next index
        else { s with currentSlotIndexToTry := s.currentSlotIndexToTry + 1 }

/-- The counter starts again where the slot has changed. -/
def continueAtJustFinishedAttemptingToGetAdCampaignSlotFiller (s : TodaysAdSlot) :
    Option (ℕ × SlotFillerDoc) → TodaysAdSlot
  | none => s.close
  | some _ =>
      { s with
        numApiRequestsForThisAdSlotSoFar :=
          if s.currentSlotIndexToTry ≠ s.firstSlotIndexToTry then 1
          else s.numApiRequestsForThisAdSlotSoFar
        stage := .sendResponse }

/-- The cache document that is put into the queue. -/
def newCache (s : TodaysAdSlot) : CampaignSlotCacheDoc where
  currentSlot := s.currentSlotIndexToTry
  numApiRequestsForCurrentSlot := s.numApiRequestsForThisAdSlotSoFar
  slotLengthHours := s.slotLengthHours
  apiKey := s.theCorrectApiKey

/-- The response that is sent. -/
def response (s : TodaysAdSlot) : ApiResponse where
  slotIndex := s.currentSlotIndexToTry
  numApiRequestsForThisAdSlotSoFar := s.numApiRequestsForThisAdSlotSoFar

def proceed (s : TodaysAdSlot) (now : ℤ) : DbAction TodaysAdSlot :=
  match s.stage with
  | .handleClientReadyRead | .closed => .pause s
  | .getAdCampaignCurrentSlotCacheIfExists =>
      .get (.adSpaceCampaignSlotCache s.campaignRequested)
        s.continueAtJustFinishedAttemptingToGetAdCampaignCurrentSlotCache
  | .getAdCampaignDocItselfToGetSlotLengthHours =>
      .get (.adSpaceCampaign s.campaignRequested) s.continueAtJustFinishedAttemptingToGetAdCampaign
  | .getAdCampaignOwnersProfileJustToGetApiKey =>
      .get (.userAccount s.campaignRequested.usernameOfCampaignOwner)
        s.continueAtJustFinishedAttemptingToGetCampaignOwnersProfileDoc
  | .getAdCampaignSlot =>
      .get (.adSpaceCampaignSlot ⟨s.campaignRequested, s.currentSlotIndexToTry⟩)
        (s.continueAtJustFinishedAttemptingToGetAdCampaignSlot now)
  | .getAdCampaignSlotFiller slotFilledWith =>
      .get (.adSpaceSlotFiller slotFilledWith)
        s.continueAtJustFinishedAttemptingToGetAdCampaignSlotFiller
  | .sendResponse =>
      -- the response is out before the count of it is stored
      .set (.apiResponses s.campaignRequested) .document s.response 0 fun _ =>
        { s with stage := .createOrUpdateAdCampaignCurrentSlotCache }
  | .createOrUpdateAdCampaignCurrentSlotCache =>
      -- no CAS: whoever stores last wins
      .set (.adSpaceCampaignSlotCache s.campaignRequested) .document s.newCache 0 fun _ => s.close

def act (s : TodaysAdSlot) : TodaysAdSlotInput → DbAction TodaysAdSlot
  | .handleClientReadyRead campaignRequested apiKeyRequested =>
      match s.stage with
      | .handleClientReadyRead =>
          .pause { s with
            campaignRequested := campaignRequested
            apiKeyRequested := apiKeyRequested
            stage := .getAdCampaignCurrentSlotCacheIfExists }
      | _ => .pause s
  | .proceed now => s.proceed now
  | .dbError =>
      match s.stage with
      | .sendResponse => .pause s
      | _ => .pause s.close
  | .disconnected =>
      -- what is in the queue is still carried out
      match s.stage with
      | .sendResponse | .createOrUpdateAdCampaignCurrentSlotCache => .pause s
      | _ => .pause s.close

end TodaysAdSlot

/-- A store and the connections of the API. -/
abbrev Api (ι : Type) := World Note Doc TodaysAdSlot ι

end Autobackup.Abc2
