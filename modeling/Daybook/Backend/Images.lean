/-
The images kept by the backend: uploading, changing and deleting them.
-/
import Daybook.Backend.Basic
import Daybook.Json.Write

namespace Daybook.Backend

open Http

/-- The fields that go with an image: its tags as a JSON text, and the
description and the album if they say something. -/
def imageForm (description tags album : Json) : Record :=
  ([("tags", .str (tags.orElse (.arr [])).compose)] : Record) ++
    (if description.isVacant then [] else [("description", description)] : Record) ++
    (if album.isVacant then [] else [("album", album)] : Record)

/-- The fields in which an answer may name the address of an image, the
first that says something counting. -/
def addressFields : List JsonString := ["image_url", "url", "path", "src"]

/-- The content of an answer with the address of the image under
`image_url`. -/
def withAddress (content : Record) : Record :=
  match (addressFields.map (Record.get content)).find? (fun value => !value.isVacant) with
  | some url => content.set "image_url" url
  | none => content

/-- Uploads an image. -/
def Site.uploadImage (site : Site) (image : Content) (filename : String)
    (description tags album : Json) : Call Record := do
  let form := imageForm description tags album
  let content ← site.call .post "/images" none (.form filename image form)
  return withAddress content

/-- Changes fields of the image with an id. -/
def Site.updateImage (site : Site) (id : String) (fields : Record) : Call Record :=
  site.call .put ("/images/" ++ id) none (.json (.obj fields))

/-- Deletes the image with an id. -/
def Site.deleteImage (site : Site) (id : String) : Call Record :=
  site.call .delete ("/images/" ++ id) none .none

end Daybook.Backend
