import Syndication.Account.Basic
import Syndication.Request

namespace Syndication

/-- What a publisher is given for one publish call. -/
structure PublishContext where
  request : Request
  account : Account
  accessToken : Secret
deriving DecidableEq, Repr

def PublishContext.postType (context : PublishContext) : String := context.request.effectivePostType

end Syndication
