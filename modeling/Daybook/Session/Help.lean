/-
The help text.
-/

namespace Daybook.Session

/-- The lines of the help text. -/
def helpLines : List String := [
  "═══ CREATE MEMORIES ═══",
  "  create memory: \"Your text\"",
  "  create memory: #work #ideas \"Your text\"",
  "  create memory: category: happy \"Your text\"",
  "  create memory: \"Your text\" tags: work, ideas category: happy",
  "",
  "═══ CREATE TABLE (Interactive) ═══",
  "  create table - Starts guided table creation",
  "    → Mother asks for: title, columns, rows, tags, category",
  "    → Type 'cancel' to abort at any step",
  "",
  "═══ CREATE LIST (Interactive) ═══",
  "  create list - Starts guided list creation",
  "    → Mother asks for: title, items, tags, category",
  "    → Type 'cancel' to abort at any step",
  "",
  "═══ CREATE TIMELINE (Interactive) ═══",
  "  create timeline - Starts guided timeline creation",
  "    → Mother asks for: title, events, tags, category",
  "    → Type 'cancel' to abort at any step",
  "    → Format for events: TIME - DESCRIPTION (e.g., '9:00 AM - Wake up')",
  "",
  "═══ SAVE IMAGES ═══",
  "  save picture - Asks for an image file to upload",
  "  save picture description: \"Beach day\" tags: summer, family",
  "",
  "═══ RETRIEVE MEMORIES ═══",
  "  show all - Retrieve all memories and images",
  "  show tags: work - Memories tagged with 'work'",
  "  show tags: work, ideas - Memories with any of these tags",
  "  show #tag1 #tag2 - Hashtag syntax for tags",
  "  show category: happy - All in category 'happy'",
  "  show pictures - All images only",
  "  show all tables - All table memories",
  "  Mother, show happy moments - Natural language retrieval",
  "  search: \"beach\" - Memories containing text",
  "",
  "═══ EDIT & DELETE ═══",
  "  edit memory #12: \"New content\" - Update memory text",
  "  edit memory #12 add: \"More text\" - Append to memory text",
  "  edit memory #12 - For tables/lists/timelines/images: opens interactive editor",
  "  delete memory #12 - Delete single memory",
  "  delete picture #5 - Delete single image",
  "  delete image #5 - Same as delete picture",
  "  delete all - Delete ALL memories (asks for confirmation)",
  "  delete memories tags: work - Delete all tagged 'work'",
  "  delete memories category: happy - Delete in category",
  "",
  "═══ OTHER ═══",
  "  clear - Clear terminal screen",
  "  help - Show this help (what you're reading)"]

end Daybook.Session
