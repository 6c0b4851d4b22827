import Syndication.Content

namespace Syndication

structure ContentStore where
  items : List ContentItem := []

namespace ContentStore

def find? (store : ContentStore) (id : ContentId) : Option ContentItem :=
  store.items.find? (·.id == id)

def put (store : ContentStore) (item : ContentItem) : ContentStore :=
  ⟨item :: store.items.filter (·.id != item.id)⟩

end ContentStore

end Syndication
