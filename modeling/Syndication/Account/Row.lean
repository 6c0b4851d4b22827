import Syndication.Account.Basic
import Syndication.Time.Text

namespace Syndication.Account

/-- The columns of a table that holds the tokens in clear. -/
def fieldNames : List String :=
  ["id", "user_id", "platform", "external_account_id", "display_name", "access_token",
    "refresh_token", "token_expires_at", "created_at", "updated_at"]

def toJson (account : Account) : Json :=
  .obj
    [("id", account.id.toJson), ("user_id", account.userId.toJson),
      ("platform", account.platform.toJson), ("external_account_id", .str account.externalId),
      ("display_name", .orNull .str account.displayName),
      ("access_token", .str account.accessToken.expose),
      ("refresh_token", .orNull (fun token : Secret => .str token.expose) account.refreshToken),
      ("token_expires_at", .orNull Timestamp.toJson account.expiresAt),
      ("created_at", account.createdAt.toJson), ("updated_at", account.updatedAt.toJson)]

/-- Reads an account; `stamp` stands for stamps that are missing. -/
def ofJson? (stamp : Timestamp) (json : Json) : Option Account := do
  let record ← Record.ofJson? fieldNames json
  return {
    id := ← record.required "id" AccountId.ofJson?
    userId := ← record.required "user_id" UserId.ofJson?
    platform := ← record.required "platform" Platform.ofJson?
    externalId := ← record.required "external_account_id" Json.str?
    displayName := ← record.optional "display_name" Json.str?
    accessToken := ⟨← record.required "access_token" Json.str?⟩
    refreshToken := (← record.optional "refresh_token" Json.str?).map .mk
    expiresAt := ← record.optional "token_expires_at" Timestamp.ofJson?
    createdAt := (← record.optional "created_at" Timestamp.ofJson?).getD stamp
    updatedAt := (← record.optional "updated_at" Timestamp.ofJson?).getD stamp }

end Syndication.Account
