import Lightfriend.Core.Machine

/-! # Checking a number with Twilio

The check configures the webhooks of the number and reads the number back. What
Twilio answers is an input; the checks on the answers are those of the source.
-/

namespace Lightfriend.Byot

structure ByotWebhookEndpoints where
  sms : String
  voice : String
deriving DecidableEq, Repr

structure ByotSetupError where
  code : String
  userMessage : String
deriving DecidableEq, Repr

structure IncomingPhoneNumberConfig where
  sid : String
  phoneNumber : String
  smsCapable : Bool
  voiceCapable : Bool
  smsUrl : String
  smsMethod : String
  voiceUrl : String
  voiceMethod : String
deriving DecidableEq, Repr

inductive TwilioClientError
  | missingCredentials (message : String)
  | requestFailed (message : String)
  | apiError (status : Nat) (message : String)
  | parseError (message : String)
  | notFound (message : String)
  | other (message : String)
deriving DecidableEq, Repr

def safeTwilioError : TwilioClientError → ByotSetupError
  | .missingCredentials _ =>
      ⟨"credentials_missing", "Add both your Twilio Account SID and Auth Token."⟩
  | .apiError 401 _ | .apiError 403 _ =>
      ⟨"credentials_rejected", "Twilio rejected those credentials."⟩
  | .notFound _ =>
      ⟨"number_not_owned", "That number was not found in the authenticated Twilio account."⟩
  | .requestFailed _ => ⟨"twilio_unavailable", "Twilio could not be reached. Please retry."⟩
  | _ =>
      ⟨"twilio_rejected", "Twilio could not verify this number. Please retry or contact support."⟩

/-- The checks on number and capabilities, which are made before and after the configuration. -/
def verifyNumber (config : IncomingPhoneNumberConfig) (phoneNumber : String) :
    Except ByotSetupError Unit :=
  if config.phoneNumber ≠ phoneNumber then
    .error ⟨"number_not_owned", "That number was not found in the authenticated Twilio account."⟩
  else if !config.smsCapable then
    .error ⟨"sms_not_supported", "This Twilio number does not support SMS."⟩
  else if !config.voiceCapable then
    .error ⟨"voice_not_supported", "This Twilio number does not support voice calls."⟩
  else .ok ()

/-- `str::eq_ignore_ascii_case`. -/
def eqIgnoreAsciiCase (s other : String) : Bool :=
  decide (toAsciiLowercase s = toAsciiLowercase other)

def verifyLiveConfiguration (config : IncomingPhoneNumberConfig) (phoneNumber : String)
    (endpoints : ByotWebhookEndpoints) : Except ByotSetupError Unit := do
  verifyNumber config phoneNumber
  if config.smsUrl ≠ endpoints.sms || !eqIgnoreAsciiCase config.smsMethod "POST" ||
      config.voiceUrl ≠ endpoints.voice || !eqIgnoreAsciiCase config.voiceMethod "POST" then
    .error ⟨"webhook_drift",
      "The Twilio webhooks do not match Lightfriend's required configuration."⟩
  else .ok ()

/-- What Twilio answers to the three requests of a check. -/
structure TwilioAnswers where
  before : Except TwilioClientError IncomingPhoneNumberConfig
  configured : Except TwilioClientError Unit
  after : Except TwilioClientError IncomingPhoneNumberConfig
deriving DecidableEq

def configureAndVerify (answers : TwilioAnswers) (phoneNumber : String)
    (endpoints : ByotWebhookEndpoints) : Except ByotSetupError IncomingPhoneNumberConfig := do
  let before ← answers.before.mapError safeTwilioError
  verifyNumber before phoneNumber
  answers.configured.mapError safeTwilioError
  let after ← answers.after.mapError safeTwilioError
  verifyLiveConfiguration after phoneNumber endpoints
  pure after

/-- A check that succeeds returns a configuration that passes the checks on a live one. -/
theorem configureAndVerify_ok {answers : TwilioAnswers} {phoneNumber : String}
    {endpoints : ByotWebhookEndpoints} {config : IncomingPhoneNumberConfig}
    (h : configureAndVerify answers phoneNumber endpoints = .ok config) :
    verifyLiveConfiguration config phoneNumber endpoints = .ok () := by
  unfold configureAndVerify at h
  obtain ⟨before, configured, after⟩ := answers
  cases before with
  | error e => cases h
  | ok before =>
      cases configured with
      | error e => cases hn : verifyNumber before phoneNumber <;>
          simp [Except.mapError, bind, Except.bind, hn] at h
      | ok u =>
          cases after with
          | error e => cases hn : verifyNumber before phoneNumber <;>
              simp [Except.mapError, bind, Except.bind, hn] at h
          | ok after =>
              cases hn : verifyNumber before phoneNumber with
              | error e => simp [Except.mapError, bind, Except.bind, hn] at h
              | ok u =>
                  cases hv : verifyLiveConfiguration after phoneNumber endpoints with
                  | error e => simp [Except.mapError, bind, Except.bind, hn, hv] at h
                  | ok u =>
                      simp only [Except.mapError, bind, Except.bind, hn, hv, pure, Except.pure,
                        Except.ok.injEq] at h
                      exact h ▸ hv

end Lightfriend.Byot
