import Lightfriend.Core.Database
import Lightfriend.Core.Table
import Lightfriend.Core.Transition

/-! # The delivery status of a message

A status callback of Twilio overwrites the status, the error and the price of
the row of its message with what it carries, and a final one begins a task that
stores the price it can fetch. The number type of a price and its parser are
parameters.
-/

namespace Lightfriend.SmsDelivery

/-! ## The log -/

structure MessageStatusLog (π : Type) where
  messageSid : String
  userId : Int
  toNumber : String
  fromNumber : Option String
  status : String
  errorCode : Option String
  errorMessage : Option String
  price : Option π
  priceUnit : Option String
  encryptedBody : Option String
  fallbackProvider : Option String
  fallbackAttemptedAt : Option Int
  fallbackMessageSid : Option String
  fallbackError : Option String
deriving DecidableEq, Repr

abbrev StatusTable (π : Type) : Type := Table (MessageStatusLog π) String (·.messageSid)

structure StatusUpdate (π : Type) where
  status : String
  errorCode : Option String
  errorMessage : Option String
  price : Option π
  priceUnit : Option String
deriving DecidableEq, Repr

variable {π : Type}

def MessageStatusLog.setStatus (u : StatusUpdate π) (r : MessageStatusLog π) :
    MessageStatusLog π :=
  { r with
    status := u.status
    errorCode := u.errorCode
    errorMessage := u.errorMessage
    price := u.price
    priceUnit := u.priceUnit }

def MessageStatusLog.setPrice (price : π) (priceUnit : String) (r : MessageStatusLog π) :
    MessageStatusLog π :=
  { r with price := some price, priceUnit := some priceUnit }

def updateMessageStatus (t : StatusTable π) (messageSid : String) (u : StatusUpdate π) :
    StatusTable π :=
  t.updateWhere (fun r => r.messageSid = messageSid) (·.setStatus u) (fun _ => rfl)

def updateMessagePrice (t : StatusTable π) (messageSid : String) (price : π)
    (priceUnit : String) : StatusTable π :=
  t.updateWhere (fun r => r.messageSid = messageSid) (·.setPrice price priceUnit) (fun _ => rfl)

/-! ## The callback -/

structure TwilioStatusCallback where
  messageSid : String
  messageStatus : String
  errorCode : Option String
  errorMessage : Option String
  price : Option String
  priceUnit : Option String
deriving DecidableEq, Repr

/-- What `fetch_message_price` finds. -/
structure MessagePrice where
  price : Option String
  priceUnit : Option String
deriving DecidableEq, Repr

/-- `is_final_status`. -/
def isFinalStatus (status : String) : Bool :=
  status = "delivered" || status = "failed" || status = "undelivered"

/-- How `parse::<f32>` reads a price. -/
structure PriceFormat (π : Type) where
  parse : String → Option π
  zero : π

namespace PriceFormat

variable (format : PriceFormat π)

def updateOf (payload : TwilioStatusCallback) : StatusUpdate π where
  status := payload.messageStatus
  errorCode := payload.errorCode
  errorMessage := payload.errorMessage
  price := payload.price.bind format.parse
  priceUnit := payload.priceUnit

def priceValue (price : MessagePrice) : π := (price.price.bind format.parse).getD format.zero

end PriceFormat

def MessagePrice.unit (price : MessagePrice) : String := price.priceUnit.getD "USD"

/-! ## Every run -/

structure StatusState (π : Type) where
  rows : StatusTable π
  /-- The messages of the tasks that fetch a price. -/
  fetching : List String

inductive StatusAction
  /-- A callback, in a process that has the credentials of Twilio or not. -/
  | callback (payload : TwilioStatusCallback) (credentials : Bool) (fate : StatementFate)
  /-- A task has fetched a price and stores it. -/
  | storePrice (messageSid : String) (price : MessagePrice) (fate : StatementFate)
deriving DecidableEq, Repr

namespace StatusState

/-- A failed update ends the callback before the price is fetched. -/
def step (format : PriceFormat π) (s : StatusState π) : StatusAction → Option (StatusState π)
  | .callback payload credentials fate => some
      { rows := fate.after s.rows
          (updateMessageStatus s.rows payload.messageSid (format.updateOf payload))
        fetching :=
          if fate = .done && isFinalStatus payload.messageStatus && credentials then
            s.fetching ++ [payload.messageSid]
          else s.fetching }
  | .storePrice messageSid price fate =>
      if messageSid ∈ s.fetching then some
        { rows := fate.after s.rows
            (updateMessagePrice s.rows messageSid (format.priceValue price) price.unit)
          fetching := s.fetching.erase messageSid }
      else none

end StatusState

/-! ## What is written to one row -/

/-- A write of the row of a message. -/
inductive StatusWrite (π : Type)
  | status (u : StatusUpdate π)
  | price (price : π) (priceUnit : String)

namespace StatusWrite

def apply (r : MessageStatusLog π) : StatusWrite π → MessageStatusLog π
  | status u => r.setStatus u
  | price p unit => r.setPrice p unit

/-- What an action that is carried out writes to the row of the message. -/
def ofAction (format : PriceFormat π) (messageSid : String) : StatusAction → Option (StatusWrite π)
  | .callback payload _ fate =>
      if payload.messageSid = messageSid ∧ fate ≠ .refused then
        some (.status (format.updateOf payload))
      else none
  | .storePrice sid p fate =>
      if sid = messageSid ∧ fate ≠ .refused then some (.price (format.priceValue p) p.unit) else none

/-- After a terminal status only terminal ones come, after a price only callbacks with one, after
an error code only callbacks with one. -/
def Precedes : StatusWrite π → StatusWrite π → Prop
  | status u, status u' =>
      (isFinalStatus u.status = true → isFinalStatus u'.status = true) ∧
        (u.price.isSome = true → u'.price.isSome = true) ∧
          (u.errorCode.isSome = true → u'.errorCode.isSome = true)
  | price _ _, status u' => u'.price.isSome = true
  | _, price _ _ => True

end StatusWrite

namespace MessageStatusLog

/-- As it is inserted when the message is sent. -/
structure IsNew (r : MessageStatusLog π) : Prop where
  status : isFinalStatus r.status = false
  price : r.price = none
  errorCode : r.errorCode = none

/-- A terminal status stays terminal, and a price or an error code is not erased. -/
structure Keeps (r r' : MessageStatusLog π) : Prop where
  status : isFinalStatus r.status = true → isFinalStatus r'.status = true
  price : r.price.isSome = true → r'.price.isSome = true
  errorCode : r.errorCode.isSome = true → r'.errorCode.isSome = true

theorem Keeps.refl (r : MessageStatusLog π) : r.Keeps r := ⟨id, id, id⟩

theorem Keeps.trans {r r' r'' : MessageStatusLog π} (h : r.Keeps r') (h' : r'.Keeps r'') :
    r.Keeps r'' :=
  ⟨fun hr => h'.status (h.status hr), fun hr => h'.price (h.price hr),
    fun hr => h'.errorCode (h.errorCode hr)⟩

/-- Each of the writes, one after the other, keeps the row that it finds. -/
def KeepsAll : MessageStatusLog π → List (StatusWrite π) → Prop
  | _, [] => True
  | r, w :: rest => r.Keeps (w.apply r) ∧ KeepsAll (w.apply r) rest

/-- A row keeps under a later write what it has now and what is written before. -/
theorem keeps_apply_apply {r : MessageStatusLog π} {w : StatusWrite π}
    (h : r.Keeps (w.apply r)) (w' : StatusWrite π) :
    (w.apply r).Keeps (w'.apply (w.apply r)) ↔ r.Keeps (w'.apply r) ∧ w.Precedes w' := by
  cases w' with
  | price p' unit' =>
      refine ⟨fun _ => ⟨⟨id, fun _ => rfl, id⟩, ?_⟩, fun _ => ⟨id, fun _ => rfl, id⟩⟩
      cases w <;> trivial
  | status u' =>
      cases w with
      | status u =>
          constructor
          · intro hkeeps
            exact ⟨⟨fun hr => hkeeps.status (h.status hr), fun hr => hkeeps.price (h.price hr),
              fun hr => hkeeps.errorCode (h.errorCode hr)⟩,
              hkeeps.status, hkeeps.price, hkeeps.errorCode⟩
          · rintro ⟨_, hstatus, hprice, herror⟩
            exact ⟨hstatus, hprice, herror⟩
      | price p unit =>
          constructor
          · intro hkeeps
            exact ⟨⟨hkeeps.status, fun _ => hkeeps.price rfl, hkeeps.errorCode⟩, hkeeps.price rfl⟩
          · rintro ⟨hkeeps, hprice⟩
            exact ⟨hkeeps.status, fun _ => hprice, hkeeps.errorCode⟩

theorem keepsAll_iff (r : MessageStatusLog π) (writes : List (StatusWrite π)) :
    r.KeepsAll writes ↔
      (∀ w ∈ writes, r.Keeps (w.apply r)) ∧ writes.Pairwise StatusWrite.Precedes := by
  induction writes generalizing r with
  | nil => simp [KeepsAll]
  | cons w rest ih =>
      rw [KeepsAll, ih, List.forall_mem_cons, List.pairwise_cons]
      constructor
      · rintro ⟨hfirst, hlater, hpairwise⟩
        refine ⟨⟨hfirst, fun w' hw' => ?_⟩, fun w' hw' => ?_, hpairwise⟩
        · exact ((keeps_apply_apply hfirst w').mp (hlater w' hw')).1
        · exact ((keeps_apply_apply hfirst w').mp (hlater w' hw')).2
      · rintro ⟨⟨hfirst, hlater⟩, hprecedes, hpairwise⟩
        refine ⟨hfirst, fun w' hw' => ?_, hpairwise⟩
        exact (keeps_apply_apply hfirst w').mpr ⟨hlater w' hw', hprecedes w' hw'⟩

/-- A new row has nothing that a write could take from it. -/
theorem IsNew.keeps {r : MessageStatusLog π} (h : r.IsNew) (r' : MessageStatusLog π) :
    r.Keeps r' := by
  refine ⟨fun hr => ?_, fun hr => ?_, fun hr => ?_⟩
  · rw [h.status] at hr
    cases hr
  · rw [h.price] at hr
    cases hr
  · rw [h.errorCode] at hr
    cases hr

end MessageStatusLog

/-! ## From the rows to the runs -/

namespace StatusState

variable {format : PriceFormat π} {messageSid : String}

def Keeps (messageSid : String) (s s' : StatusState π) : Prop :=
  ∀ r, s.rows.find? messageSid = some r → ∃ r', s'.rows.find? messageSid = some r' ∧ r.Keeps r'

/-- Between any two moments of the run the row of the message keeps what it has. -/
def NeverRegresses (format : PriceFormat π) (messageSid : String) (s : StatusState π)
    (actions : List StatusAction) : Prop :=
  ∀ first middle rest before after, actions = first ++ middle ++ rest →
    Transition.run (step format) s first = some before →
      Transition.run (step format) before middle = some after → before.Keeps messageSid after

def writes (format : PriceFormat π) (messageSid : String) (actions : List StatusAction) :
    List (StatusWrite π) := actions.filterMap (StatusWrite.ofAction format messageSid)

theorem find?_update (t : StatusTable π) (sid : String)
    (set : MessageStatusLog π → MessageStatusLog π) (hkey : ∀ r, (set r).messageSid = r.messageSid)
    (fate : StatementFate) {r : MessageStatusLog π} (h : t.find? messageSid = some r) :
    (fate.after t (t.updateWhere (fun r => r.messageSid = sid) set hkey)).find? messageSid =
      some (if sid = messageSid ∧ fate ≠ .refused then set r else r) := by
  have hsid : r.messageSid = messageSid := (Table.find?_eq_some_iff.mp h).2
  have hwritten : (t.updateWhere (fun r => r.messageSid = sid) set hkey).find? messageSid =
      some (if sid = messageSid then set r else r) := by
    rw [Table.find?_updateWhere, h, Option.map_some, hsid]
    by_cases heq : sid = messageSid
    · simp [heq]
    · simp [heq, Ne.symm heq]
  cases fate with
  | done => simpa [StatementFate.after] using hwritten
  | refused => simpa [StatementFate.after] using h
  | lost => simpa [StatementFate.after] using hwritten

/-- A step leaves the row of the message with what its action writes. -/
theorem find?_step {s next : StatusState π} {a : StatusAction} {r : MessageStatusLog π}
    (h : s.rows.find? messageSid = some r) (hstep : s.step format a = some next) :
    next.rows.find? messageSid =
      some (((StatusWrite.ofAction format messageSid a).map (·.apply r)).getD r) := by
  cases a with
  | callback payload credentials fate =>
      cases hstep
      have hfound := find?_update s.rows payload.messageSid
        (·.setStatus (format.updateOf payload)) (fun _ => rfl) fate h
      refine hfound.trans ?_
      simp only [StatusWrite.ofAction]
      split
      · rfl
      · rfl
  | storePrice sid price fate =>
      simp only [step, Option.ite_none_right_eq_some, Option.some.injEq] at hstep
      obtain ⟨_, rfl⟩ := hstep
      have hfound := find?_update s.rows sid
        (·.setPrice (format.priceValue price) price.unit) (fun _ => rfl) fate h
      refine hfound.trans ?_
      simp only [StatusWrite.ofAction]
      split
      · rfl
      · rfl

theorem neverRegresses_cons {s next : StatusState π} {a : StatusAction}
    {rest : List StatusAction} (hstep : s.step format a = some next) :
    NeverRegresses format messageSid s (a :: rest) ↔
      s.Keeps messageSid next ∧ NeverRegresses format messageSid next rest := by
  have hone : Transition.run (step format) s [a] = some next := by
    rw [Transition.run_cons_of_step hstep]
    rfl
  constructor
  · intro h
    refine ⟨h [] [a] rest s next rfl rfl hone, fun first middle last before after hsplit => ?_⟩
    intro hbefore hafter
    refine h (a :: first) middle last before after (by rw [hsplit]; rfl) ?_ hafter
    rw [Transition.run_cons_of_step hstep]
    exact hbefore
  · rintro ⟨hkeeps, h⟩ first middle last before after hsplit hbefore hafter
    cases first with
    | cons b first =>
        obtain ⟨rfl, hrest⟩ := List.cons.inj hsplit
        rw [Transition.run_cons_of_step hstep] at hbefore
        exact h first middle last before after hrest hbefore hafter
    | nil =>
        cases hbefore
        cases middle with
        | nil =>
            cases hafter
            exact fun r hr => ⟨r, hr, .refl r⟩
        | cons b middle =>
            obtain ⟨rfl, hrest⟩ := List.cons.inj hsplit
            rw [Transition.run_cons_of_step hstep] at hafter
            intro r hr
            obtain ⟨r', hr', hkeeps'⟩ := hkeeps r hr
            obtain ⟨r'', hr'', hkeeps''⟩ := h [] middle last next after hrest rfl hafter r' hr'
            exact ⟨r'', hr'', hkeeps'.trans hkeeps''⟩

theorem neverRegresses_iff_keepsAll {s final : StatusState π} {actions : List StatusAction}
    {r : MessageStatusLog π} (h : s.rows.find? messageSid = some r)
    (hrun : Transition.run (step format) s actions = some final) :
    NeverRegresses format messageSid s actions ↔
      r.KeepsAll (writes format messageSid actions) := by
  induction actions generalizing s r with
  | nil =>
      refine iff_of_true (fun first middle rest before after hsplit hbefore hafter => ?_) trivial
      obtain ⟨hfirst, _⟩ := List.append_eq_nil_iff.mp hsplit.symm
      obtain ⟨rfl, rfl⟩ := List.append_eq_nil_iff.mp hfirst
      cases hbefore
      cases hafter
      exact fun r hr => ⟨r, hr, .refl r⟩
  | cons a rest ih =>
      obtain ⟨next, hstep, hrest⟩ := Transition.run_cons_spec hrun
      have hfound := find?_step h hstep
      rw [neverRegresses_cons hstep, ih hfound hrest]
      have hkeeps : s.Keeps messageSid next ↔
          r.Keeps (((StatusWrite.ofAction format messageSid a).map (·.apply r)).getD r) := by
        constructor
        · intro hkeeps
          obtain ⟨r', hr', hrow⟩ := hkeeps r h
          rw [hfound] at hr'
          cases hr'
          exact hrow
        · intro hrow r' hr'
          rw [h] at hr'
          cases hr'
          exact ⟨_, hfound, hrow⟩
      rw [hkeeps]
      simp only [writes, List.filterMap_cons]
      cases StatusWrite.ofAction format messageSid a with
      | none => exact and_iff_right (.refl r)
      | some w => rfl

end StatusState

/-- From a new row on, a message never regresses exactly when of its callbacks and fetched prices
that are carried out each precedes the later ones. -/
theorem status_never_regresses_iff {format : PriceFormat π} {messageSid : String}
    {s final : StatusState π} {actions : List StatusAction} {r : MessageStatusLog π}
    (hfound : s.rows.find? messageSid = some r) (hnew : r.IsNew)
    (hrun : Transition.run (StatusState.step format) s actions = some final) :
    StatusState.NeverRegresses format messageSid s actions ↔
      (StatusState.writes format messageSid actions).Pairwise StatusWrite.Precedes := by
  rw [StatusState.neverRegresses_iff_keepsAll hfound hrun, MessageStatusLog.keepsAll_iff]
  exact and_iff_right (fun w _ => hnew.keeps (w.apply r))

/-! ## A late callback -/

namespace StatusExample

def format : PriceFormat Int := ⟨fun p => if p = "-1" then some (-1) else none, 0⟩

def sent : MessageStatusLog Int where
  messageSid := "SM1"
  userId := 1
  toNumber := "+358401234567"
  fromNumber := none
  status := "queued"
  errorCode := none
  errorMessage := none
  price := none
  priceUnit := none
  encryptedBody := none
  fallbackProvider := none
  fallbackAttemptedAt := none
  fallbackMessageSid := none
  fallbackError := none

def start : StatusState Int := ⟨⟨[sent], by decide⟩, []⟩

def callback (status : String) : StatusAction :=
  .callback ⟨"SM1", status, none, none, none, none⟩ true .done

/-- The callback of an earlier status comes last. -/
def lateSent : List StatusAction :=
  [callback "delivered", .storePrice "SM1" ⟨some "-1", some "USD"⟩ .done, callback "sent"]

def reached (actions : List StatusAction) : StatusState Int :=
  Transition.final (StatusState.step format) start actions

end StatusExample

open StatusExample in
theorem status_never_regresses_iff_late_sent :
    StatusState.NeverRegresses format "SM1" start lateSent ↔
      (StatusState.writes format "SM1" lateSent).Pairwise StatusWrite.Precedes :=
  status_never_regresses_iff (show start.rows.find? "SM1" = some sent by decide +kernel)
    ⟨by decide +kernel, rfl, rfl⟩
    (show Transition.run (StatusState.step format) start lateSent = some (reached lateSent) from
      Transition.run_eq_final (by decide +kernel))

open StatusExample in
theorem not_status_never_regresses :
    ¬ ∀ (messageSid : String) (s final : StatusState Int) (actions : List StatusAction)
      (r : MessageStatusLog Int), s.rows.find? messageSid = some r → r.IsNew →
        Transition.run (StatusState.step format) s actions = some final →
          StatusState.NeverRegresses format messageSid s actions := by
  intro hlaw
  have hnew : sent.IsNew := ⟨by decide +kernel, rfl, rfl⟩
  have hnever := hlaw "SM1" start (reached lateSent) lateSent sent (by decide +kernel) hnew
    (Transition.run_eq_final (by decide +kernel))
  have hone : Transition.run (StatusState.step format) start [callback "delivered"] =
      some (reached [callback "delivered"]) := Transition.run_eq_final (by decide +kernel)
  have hall : Transition.run (StatusState.step format) start lateSent = some (reached lateSent) :=
    Transition.run_eq_final (by decide +kernel)
  obtain ⟨middle, hfirst, hrest⟩ := Transition.run_append.mp
    (show Transition.run (StatusState.step format) start
      ([callback "delivered"] ++ lateSent.tail) = some (reached lateSent) from hall)
  rw [hone] at hfirst
  cases hfirst
  obtain ⟨r', hr', hkeeps⟩ := hnever [callback "delivered"] lateSent.tail [] _ _ rfl hone hrest
    ((reached [callback "delivered"]).rows.rows.head (by decide +kernel)) (by decide +kernel)
  have hstatus := hkeeps.status (by decide +kernel)
  have hlate : (reached lateSent).rows.find? "SM1" =
      some ((reached lateSent).rows.rows.head (by decide +kernel)) := by decide +kernel
  rw [hlate] at hr'
  cases hr'
  exact absurd hstatus (by decide +kernel)

end Lightfriend.SmsDelivery
