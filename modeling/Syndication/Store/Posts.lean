import Syndication.Fault.Service
import Syndication.Post

namespace Syndication

structure PostStore where
  rows : List Post := []

namespace PostStore

def find? (store : PostStore) (job : JobId) : Option Post := store.rows.find? (·.jobId == job)

def insert (store : PostStore) (post : Post) : Except ServiceFault PostStore :=
  if (store.find? post.jobId).isSome then
    .error ⟨.duplicateKey, s!"Publish job {post.jobId.text} already has a published post", []⟩
  else .ok ⟨store.rows ++ [post]⟩

end PostStore

end Syndication
