/-
Names of the images that the worker and the merger write, and their GDAL locations.
-/

namespace EchoProcessing.Image

def outDirectory : String := "/bucket-processing/images/out/processing_echo_"

/-- The tile that a worker writes for one row of a processing. -/
def tileURL (processingId workerId : String) : String :=
  outDirectory ++ processingId ++ "_tile_" ++ workerId ++ ".tif"

/-- The mosaic that the merger writes for a processing. -/
def resultURL (processingId : String) : String :=
  outDirectory ++ processingId ++ "_result.vrt"

/-- Where GDAL finds an image: on the disk, or in the bucket. -/
def getGdalURL (dataLocal : Bool) (imageURL : String) (read : Bool) : String :=
  if dataLocal then "/data" ++ imageURL
  else if read then "/vsigs_streaming" ++ imageURL
  else "/vsigs" ++ imageURL

theorem tileURL_injective (processingId : String) :
    Function.Injective (tileURL processingId) := by
  intro left right same
  unfold tileURL at same
  exact (String.append_right_inj _).mp ((String.append_left_inj _).mp same)

end EchoProcessing.Image
