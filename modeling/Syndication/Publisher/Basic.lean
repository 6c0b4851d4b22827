import Syndication.Publisher.Facebook
import Syndication.Publisher.Instagram
import Syndication.Publisher.Linkedin
import Syndication.Publisher.Youtube

namespace Syndication.Publisher

/-- The address of a platform's service unless configured otherwise. -/
def defaultBase : Platform → String
  | .youtube => Youtube.defaultBase
  | .linkedin => Linkedin.defaultBase
  | .instagram | .facebook => Facebook.defaultBase

/-- An address without the slashes at its end. -/
def address (url : String) : String := Text.dropTrailing '/' url

/-- Publishes through the service of a platform. -/
def publish (base : Platform → String) (platform : Platform) (context : PublishContext) :
    Work PublishResult :=
  let base := address (base platform)
  match platform with
  | .youtube => Youtube.publish base context
  | .linkedin => Linkedin.publish base context
  | .instagram => Instagram.publish base context
  | .facebook => Facebook.publish base context

end Syndication.Publisher
