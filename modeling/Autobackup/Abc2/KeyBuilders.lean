import Autobackup.Foundation.QString

/-!
# The builders of couchbase keys

A key is the name of the kind of document, and the arguments of the builder behind it, each with a
separator in front.  Neither a user name nor an index contains a separator, so what is between the
separators gives the builder and its arguments back, although some of the names begin with others
(`keys_never_collide`).

The arguments are what the validators of the front end let through: letters and digits for a name,
digits for an index.  That is a type here, so a name with a separator cannot be given to a builder.
-/

namespace Autobackup.Abc2

open QString

/-- `D3FAULTS_COUCHBASE_SHARED_KEY_SEPARATOR` -/
def sharedKeySeparator : Char := '_'

/-- `LETTERS_NUMBERS_ONLY_REGEXPVALIDATOR_AND_INPUT_FILTER_REGEX` -/
def isLetterOrNumber (c : Char) : Bool :=
  ('a' ≤ c ∧ c ≤ 'z') ∨ ('A' ≤ c ∧ c ≤ 'Z') ∨ ('0' ≤ c ∧ c ≤ '9')

/-- A user name that the validator accepts, of any length. -/
@[ext]
structure LettersNumbersOnly where
  text : Text
  ne_nil : text ≠ []
  letters : text.all isLetterOrNumber = true

/-- The decimal digits of an index. -/
@[ext]
structure IndexString where
  text : Text
  ne_nil : text ≠ []
  digits : text.all Char.isDigit = true

lemma LettersNumbersOnly.separator_not_mem (username : LettersNumbersOnly) :
    sharedKeySeparator ∉ username.text := fun h => by
  have hletter := List.all_eq_true.1 username.letters _ h
  exact absurd hletter (by decide)

lemma IndexString.separator_not_mem (index : IndexString) : sharedKeySeparator ∉ index.text :=
  fun h => by
    have hdigit := List.all_eq_true.1 index.digits _ h
    exact absurd hdigit (by decide)

/-! ## The builders -/

/-- A prefix and the arguments behind it. -/
def couchbaseKey (keyPrefix : String) (arguments : List Text) : Text :=
  keyPrefix.toList ++ arguments.flatMap fun argument => sharedKeySeparator :: argument

def adSpaceCampaignKey (usernameOfCampaignOwner campaignIndex : Text) : Text :=
  couchbaseKey "adSpaceCampaign" [usernameOfCampaignOwner, campaignIndex]

def adSpaceCampaignSlotKey (usernameOfCampaignOwner campaignIndex slotIndex : Text) : Text :=
  couchbaseKey "adSpaceCampaignSlot" [usernameOfCampaignOwner, campaignIndex, slotIndex]

def adSpaceSlotFillerKey (username slotFillerIndex : Text) : Text :=
  couchbaseKey "adSpaceSlotFiller" [username, slotFillerIndex]

def adSpaceAllSlotFillersKey (username : Text) : Text :=
  couchbaseKey "adSpaceAllSlotFillers" [username]

def userAccountKey (username : Text) : Text := couchbaseKey "user" [username]

def transactionKey (campaignOwnerUsername campaignIndex slotIndex : Text) : Text :=
  couchbaseKey "tx" [campaignOwnerUsername, campaignIndex, slotIndex]

def bitcoinKeySetCurrentPageKey (setN : Text) : Text :=
  couchbaseKey "bitcoinKeySetCurrentPage" [setN]

def bitcoinKeySetPageKey (setN pageY : Text) : Text :=
  couchbaseKey "bitcoinKeySetPage" [setN, pageY]

def hugeBitcoinKeyListCurrentPageKey : Text := couchbaseKey "hugeBitcoinKeyListCurrentPage" []

def hugeBitcoinKeyListPageKey (pageZ : Text) : Text :=
  couchbaseKey "hugeBitcoinKeyListPage" [pageZ]

def adSpaceCampaignIndexCacheKey (usernameOfCampaignOwner : Text) : Text :=
  couchbaseKey "adSpaceCampaignNextAvailableIndexCache" [usernameOfCampaignOwner]

def adSpaceCampaignSlotCacheKey (usernameOfCampaignOwner campaignIndex : Text) : Text :=
  couchbaseKey "adSpaceCampaignCurrentSlotCache" [usernameOfCampaignOwner, campaignIndex]

def withdrawFundsRequestKey (username withdrawFundsRequestIndex : Text) : Text :=
  couchbaseKey "withdrawFundsRequest" [username, withdrawFundsRequestIndex]

def withdrawFundsRequestsNextAvailableIndexKey (username : Text) : Text :=
  couchbaseKey "withdrawFundsRequestNextAvailableIndex" [username]

/-- `userRequestingWithdrawal` in `processWithdrawalRequest`: the part at position 1. -/
def userRequestingWithdrawal (keyToNotDoneWithdrawalRequest : Text) : Option Text :=
  (keyToNotDoneWithdrawalRequest.splitOn sharedKeySeparator)[1]?

inductive KeyBuilder where
  | adSpaceCampaignKey
  | adSpaceCampaignSlotKey
  | adSpaceSlotFillerKey
  | adSpaceAllSlotFillersKey
  | userAccountKey
  | transactionKey
  | bitcoinKeySetCurrentPageKey
  | bitcoinKeySetPageKey
  | hugeBitcoinKeyListCurrentPageKey
  | hugeBitcoinKeyListPageKey
  | adSpaceCampaignIndexCacheKey
  | adSpaceCampaignSlotCacheKey
  | withdrawFundsRequestKey
  | withdrawFundsRequestsNextAvailableIndexKey
  deriving DecidableEq

namespace KeyBuilder

/-- What a builder is called with. -/
@[reducible] def Arguments : KeyBuilder → Type
  | adSpaceCampaignKey | adSpaceSlotFillerKey | adSpaceCampaignSlotCacheKey
  | withdrawFundsRequestKey => LettersNumbersOnly × IndexString
  | adSpaceCampaignSlotKey | transactionKey => LettersNumbersOnly × IndexString × IndexString
  | adSpaceAllSlotFillersKey | userAccountKey | adSpaceCampaignIndexCacheKey
  | withdrawFundsRequestsNextAvailableIndexKey => LettersNumbersOnly
  | bitcoinKeySetCurrentPageKey | hugeBitcoinKeyListPageKey => IndexString
  | bitcoinKeySetPageKey => IndexString × IndexString
  | hugeBitcoinKeyListCurrentPageKey => Unit

/-- The key that a call of a builder gives. -/
def key : (builder : KeyBuilder) → builder.Arguments → Text
  | adSpaceCampaignKey, (owner, index) => Abc2.adSpaceCampaignKey owner.text index.text
  | adSpaceCampaignSlotKey, (owner, index, slotIndex) =>
      Abc2.adSpaceCampaignSlotKey owner.text index.text slotIndex.text
  | adSpaceSlotFillerKey, (username, index) => Abc2.adSpaceSlotFillerKey username.text index.text
  | adSpaceAllSlotFillersKey, username => Abc2.adSpaceAllSlotFillersKey username.text
  | userAccountKey, username => Abc2.userAccountKey username.text
  | transactionKey, (owner, index, slotIndex) =>
      Abc2.transactionKey owner.text index.text slotIndex.text
  | bitcoinKeySetCurrentPageKey, setN => Abc2.bitcoinKeySetCurrentPageKey setN.text
  | bitcoinKeySetPageKey, (setN, pageY) => Abc2.bitcoinKeySetPageKey setN.text pageY.text
  | hugeBitcoinKeyListCurrentPageKey, () => Abc2.hugeBitcoinKeyListCurrentPageKey
  | hugeBitcoinKeyListPageKey, pageZ => Abc2.hugeBitcoinKeyListPageKey pageZ.text
  | adSpaceCampaignIndexCacheKey, owner => Abc2.adSpaceCampaignIndexCacheKey owner.text
  | adSpaceCampaignSlotCacheKey, (owner, index) =>
      Abc2.adSpaceCampaignSlotCacheKey owner.text index.text
  | withdrawFundsRequestKey, (username, index) =>
      Abc2.withdrawFundsRequestKey username.text index.text
  | withdrawFundsRequestsNextAvailableIndexKey, username =>
      Abc2.withdrawFundsRequestsNextAvailableIndexKey username.text

/-! ## What is between the separators -/

def keyPrefix : KeyBuilder → String
  | adSpaceCampaignKey => "adSpaceCampaign"
  | adSpaceCampaignSlotKey => "adSpaceCampaignSlot"
  | adSpaceSlotFillerKey => "adSpaceSlotFiller"
  | adSpaceAllSlotFillersKey => "adSpaceAllSlotFillers"
  | userAccountKey => "user"
  | transactionKey => "tx"
  | bitcoinKeySetCurrentPageKey => "bitcoinKeySetCurrentPage"
  | bitcoinKeySetPageKey => "bitcoinKeySetPage"
  | hugeBitcoinKeyListCurrentPageKey => "hugeBitcoinKeyListCurrentPage"
  | hugeBitcoinKeyListPageKey => "hugeBitcoinKeyListPage"
  | adSpaceCampaignIndexCacheKey => "adSpaceCampaignNextAvailableIndexCache"
  | adSpaceCampaignSlotCacheKey => "adSpaceCampaignCurrentSlotCache"
  | withdrawFundsRequestKey => "withdrawFundsRequest"
  | withdrawFundsRequestsNextAvailableIndexKey => "withdrawFundsRequestNextAvailableIndex"

/-- The texts of the arguments. -/
def texts : (builder : KeyBuilder) → builder.Arguments → List Text
  | adSpaceCampaignKey, (username, index) | adSpaceSlotFillerKey, (username, index)
  | adSpaceCampaignSlotCacheKey, (username, index) | withdrawFundsRequestKey, (username, index) =>
      [username.text, index.text]
  | adSpaceCampaignSlotKey, (owner, index, slotIndex)
  | transactionKey, (owner, index, slotIndex) => [owner.text, index.text, slotIndex.text]
  | adSpaceAllSlotFillersKey, username | userAccountKey, username
  | adSpaceCampaignIndexCacheKey, username
  | withdrawFundsRequestsNextAvailableIndexKey, username => [username.text]
  | bitcoinKeySetCurrentPageKey, index | hugeBitcoinKeyListPageKey, index => [index.text]
  | bitcoinKeySetPageKey, (setN, pageY) => [setN.text, pageY.text]
  | hugeBitcoinKeyListCurrentPageKey, () => []

end KeyBuilder

lemma splitOn_couchbaseKey {keyPrefix : String} {arguments : List Text}
    (hseparator : sharedKeySeparator ∉ keyPrefix.toList)
    (harguments : ∀ argument ∈ arguments, sharedKeySeparator ∉ argument) :
    (couchbaseKey keyPrefix arguments).splitOn sharedKeySeparator =
      keyPrefix.toList :: arguments := by
  suffices h : ∀ text : Text, sharedKeySeparator ∉ text →
      (text ++ arguments.flatMap fun argument => sharedKeySeparator :: argument).splitOn
        sharedKeySeparator = text :: arguments from h _ hseparator
  induction arguments with
  | nil =>
      intro text htext
      rw [List.flatMap_nil, List.append_nil, List.splitOn_eq_singleton htext]
  | cons argument arguments ih =>
      obtain ⟨hargument, hrest⟩ := List.forall_mem_cons.1 harguments
      intro text htext
      rw [List.flatMap_cons, List.cons_append, List.splitOn_append_cons_self_of_not_mem htext,
        ih hrest argument hargument]

namespace KeyBuilder

variable {builder builder' : KeyBuilder}

lemma key_eq (args : builder.Arguments) :
    builder.key args = couchbaseKey builder.keyPrefix (builder.texts args) := by
  cases builder <;> rfl

lemma separator_not_mem_keyPrefix : sharedKeySeparator ∉ builder.keyPrefix.toList := by
  cases builder <;> decide

lemma separator_not_mem_texts (args : builder.Arguments) :
    ∀ text ∈ builder.texts args, sharedKeySeparator ∉ text := by
  cases builder <;>
    simp [texts, LettersNumbersOnly.separator_not_mem, IndexString.separator_not_mem]

/-- Between the separators are the prefix and the arguments. -/
lemma splitOn_key (args : builder.Arguments) :
    (builder.key args).splitOn sharedKeySeparator =
      builder.keyPrefix.toList :: builder.texts args := by
  rw [key_eq]
  exact splitOn_couchbaseKey separator_not_mem_keyPrefix (separator_not_mem_texts args)

lemma keyPrefix_injective (h : builder.keyPrefix = builder'.keyPrefix) : builder = builder' := by
  cases builder <;> cases builder' <;> first | rfl | exact absurd h (by decide)

lemma texts_injective {args args' : builder.Arguments}
    (h : builder.texts args = builder.texts args') : args = args' := by
  cases builder with
  | adSpaceCampaignKey | adSpaceSlotFillerKey | adSpaceCampaignSlotCacheKey
  | withdrawFundsRequestKey =>
      obtain ⟨husername, hindex⟩ := List.cons.inj h
      exact Prod.ext (LettersNumbersOnly.ext husername) (IndexString.ext (List.cons.inj hindex).1)
  | adSpaceCampaignSlotKey | transactionKey =>
      obtain ⟨howner, hindices⟩ := List.cons.inj h
      obtain ⟨hindex, hslotIndex⟩ := List.cons.inj hindices
      exact Prod.ext (LettersNumbersOnly.ext howner)
        (Prod.ext (IndexString.ext hindex) (IndexString.ext (List.cons.inj hslotIndex).1))
  | adSpaceAllSlotFillersKey | userAccountKey | adSpaceCampaignIndexCacheKey
  | withdrawFundsRequestsNextAvailableIndexKey =>
      exact LettersNumbersOnly.ext (List.cons.inj h).1
  | bitcoinKeySetCurrentPageKey | hugeBitcoinKeyListPageKey =>
      exact IndexString.ext (List.cons.inj h).1
  | bitcoinKeySetPageKey =>
      obtain ⟨hsetN, hpageY⟩ := List.cons.inj h
      exact Prod.ext (IndexString.ext hsetN) (IndexString.ext (List.cons.inj hpageY).1)
  | hugeBitcoinKeyListCurrentPageKey => rfl

/-- **Two calls give the same key only if they are the same call,** and the key of a withdrawal
request tells whose it is.  Documents of all kinds are in one bucket, and an `add` is refused if the
key is taken.  So two calls with one key would make a document of one kind stand in the way of
another. -/
theorem keys_never_collide :
    (∀ (builder builder' : KeyBuilder) (args : builder.Arguments) (args' : builder'.Arguments),
      builder.key args = builder'.key args' →
        (⟨builder, args⟩ : (b : KeyBuilder) × b.Arguments) = ⟨builder', args'⟩) ∧
      ∀ (username : LettersNumbersOnly) (index : IndexString),
        userRequestingWithdrawal (Abc2.withdrawFundsRequestKey username.text index.text) =
          some username.text := by
  constructor
  · intro builder builder' args args' h
    have hparts := congrArg (List.splitOn sharedKeySeparator) h
    rw [splitOn_key, splitOn_key] at hparts
    obtain ⟨hbuilder, htexts⟩ := List.cons.inj hparts
    obtain rfl := keyPrefix_injective (String.toList_inj.1 hbuilder)
    rw [texts_injective htexts]
  · intro username index
    have hsplit := @splitOn_key withdrawFundsRequestKey (username, index)
    change (Abc2.withdrawFundsRequestKey username.text index.text).splitOn _ = _ at hsplit
    rw [userRequestingWithdrawal, hsplit]
    rfl

end KeyBuilder

end Autobackup.Abc2
