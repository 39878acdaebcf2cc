import TeamDigest.Http.Exchange

/-!
# Slack

Messages are posted to the address of a webhook.
-/

namespace TeamDigest.Service.Slack

open Http

/-- The name of the service in errors. -/
def serviceName : String := "Slack"

/-- Posts a message with markup. -/
def publish (webhook text : String) : Client Unit := do
  let body := Data.record [("text", .text text), ("mrkdwn", .bool true)]
  discard (Client.exchange serviceName (Http.request .post webhook [] [] (some body)))

end TeamDigest.Service.Slack
