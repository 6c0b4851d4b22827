import Syndication.Publisher.Work

namespace Syndication.Facebook

/-- The address of the graph service. -/
def defaultBase : String := "https://graph.facebook.com/v19.0"

def form (item : ContentItem) : List (String × String) :=
  ("message", item.caption) :: (item.mediaUrl.toList.map fun link => ("link", link))

def feedRequest (base : String) (context : PublishContext) (item : ContentItem) : Http.Request :=
  ((Http.Request.post s!"{base}/{Text.trim context.account.externalId}/feed").withToken
    context.accessToken.expose).withForm (form item)

def permalink (id : String) : String := s!"https://www.facebook.com/{id}"

def publish (base : String) (context : PublishContext) : Work PublishResult :=
  Work.withContent context fun item => do
    let reply ← Work.send (feedRequest base context item)
    Work.onSuccess .facebook "page feed" reply do
      let id ← Work.decode reply (Work.onlyField? "id")
      return .published id (permalink id)

end Syndication.Facebook
