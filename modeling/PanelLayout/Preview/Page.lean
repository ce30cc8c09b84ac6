/-!
# Editor page

The page on which a layout is edited beside its drawing. The drawing is asked for again after every
change and whenever its window is resized.
-/

namespace PanelLayout

namespace Preview

/-- The lines of the page. -/
def pageLines : List String := [
  "<!DOCTYPE html>",
  "<html>",
  "<head>",
  "  <meta charset=\"utf-8\">",
  "  <title>scalemenu layout preview</title>",
  "  <style>",
  "    body \x7b font-family: sans-serif; display: flex; gap: 1em; margin: 1em; \x7d",
  "    textarea \x7b width: 40em; height: 30em; font-family: monospace; \x7d",
  "    #error \x7b color: #b00; white-space: pre; font-family: monospace; \x7d",
  "    #preview \x7b border: 1px solid #888; resize: both; overflow: hidden; width: 640px; height: 480px; \x7d",
  "  </style>",
  "</head>",
  "<body>",
  "  <div>",
  "    <textarea id=\"layout\">\x7b",
  "  \"margin\": [\"width/50\", \"height/50\"],",
  "  \"frame\": [\"10\", \"10\"],",
  "  \"column_weights\": \x7b\"0\": 2\x7d,",
  "  \"children\": [",
  "    \x7b\"name\": \"sidebar\", \"column\": 0, \"row\": 0\x7d,",
  "    \x7b\"name\": \"content\", \"column\": 1, \"row\": 0\x7d,",
  "    \x7b\"name\": \"ok\", \"x\": \"CENTERX\", \"y\": \"height-HEIGHT-10\", \"width\": \"width/5\", \"height\": \"height/12\"\x7d",
  "  ]",
  "\x7d</textarea>",
  "    <div id=\"error\"></div>",
  "  </div>",
  "  <div id=\"preview\"><img id=\"image\" alt=\"layout preview\"></div>",
  "  <script>",
  "    const preview = document.getElementById('preview');",
  "    const image = document.getElementById('image');",
  "    const error = document.getElementById('error');",
  "    const editor = document.getElementById('layout');",
  "",
  "    async function refresh() \x7b",
  "      let layout;",
  "      try \x7b",
  "        layout = JSON.parse(editor.value);",
  "      \x7d catch (e) \x7b",
  "        error.textContent = e.toString();",
  "        return;",
  "      \x7d",
  "      const res = await fetch('preview.svg', \x7b",
  "        method: 'POST',",
  "        headers: \x7b'Content-Type': 'application/json'\x7d,",
  "        body: JSON.stringify(\x7blayout: layout, width: preview.clientWidth, height: preview.clientHeight\x7d),",
  "      \x7d);",
  "      if (!res.ok) \x7b",
  "        error.textContent = await res.text();",
  "        return;",
  "      \x7d",
  "      error.textContent = '';",
  "      image.src = URL.createObjectURL(await res.blob());",
  "    \x7d",
  "",
  "    editor.addEventListener('input', refresh);",
  "    new ResizeObserver(refresh).observe(preview);",
  "  </script>",
  "</body>",
  "</html>"]

/-- The page, each line ended. -/
def pageText : String := String.join (pageLines.map (· ++ "\n"))

end Preview

end PanelLayout
